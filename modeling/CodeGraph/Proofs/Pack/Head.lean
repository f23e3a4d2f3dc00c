import Mathlib
import CodeGraph.Pack.Head

/-!
# Heads are read back

The head of an item is read back from its octets, whatever follows them, as long as the
number in it has room in the word that it is written in (`Head.Fits`).  Lengths are written in
at most four octets; an integer has to be one of those that its form is for.  Every head that
is read has room in this sense, whatever the octets are (`Head.fits_of_read?`).
-/

namespace CodeGraph.Pack

/-! ### Words -/

lemma word?_ofNatBE {width n : Nat} (h : n < Bytes.bound width) (rest : Bytes) :
    word? width (Bytes.ofNatBE width n ++ rest) = some (n, rest) := by
  have htake := Bytes.take?_append (Bytes.ofNatBE width n) rest
  rw [Bytes.length_ofNatBE] at htake
  simp only [word?, htake, Option.map_some, Bytes.toNatBE_ofNatBE h]

lemma toNatLE_lt (bs : Bytes) : Bytes.toNatLE bs < Bytes.bound bs.length := by
  induction bs with
  | nil => decide
  | cons b bs ih =>
    have hoctet : b.toNat < 256 := b.toNat_lt
    simp only [Bytes.toNatLE, List.length_cons, Bytes.bound]
    omega

/-- A word is less than its width allows. -/
lemma lt_bound_of_word? {width n : Nat} {bs rest : Bytes} (h : word? width bs = some (n, rest)) :
    n < Bytes.bound width := by
  obtain ⟨⟨field, rest'⟩, htake, heq⟩ := Option.map_eq_some_iff.1 h
  obtain ⟨rfl, -⟩ := Prod.mk.inj heq
  have hlength : field.length = width := (Bytes.append_of_take? htake).2
  have hlt := toNatLE_lt field.reverse
  rwa [List.length_reverse, hlength] at hlt

/-- A number that `width` octets have room for. -/
def Unsigned (width : Nat) (n : Int) : Prop :=
  0 ≤ n ∧ n < Bytes.bound width

/-- A number that `width` octets have room for, one half of them standing for negative
numbers. -/
def Signed (width : Nat) (n : Int) : Prop :=
  -Bytes.bound width ≤ 2 * n ∧ 2 * n < Bytes.bound width

lemma signedWord?_ofNatBE {width : Nat} {n : Int} (h : Signed width n) (rest : Bytes) :
    signedWord? width (Bytes.ofNatBE width (n % Bytes.bound width).toNat ++ rest)
      = some (n, rest) := by
  obtain ⟨hlow, hhigh⟩ := h
  have hpos : (0 : Int) < Bytes.bound width := by omega
  have hnonneg := Int.emod_nonneg n hpos.ne'
  have hbound := Int.emod_lt_of_pos n hpos
  have hword : word? width (Bytes.ofNatBE width (n % Bytes.bound width).toNat ++ rest)
      = some ((n % Bytes.bound width).toNat, rest) := word?_ofNatBE (by omega) rest
  simp only [signedWord?, hword, Option.map_some]
  congr 2
  -- Negative numbers are written above all others.
  rcases le_or_gt 0 n with hn | hn
  · have hmod : n % Bytes.bound width = n := Int.emod_eq_of_lt hn (by omega)
    rw [hmod, if_pos (by omega), Int.toNat_of_nonneg hn]
  · have hmod : n % Bytes.bound width = n + Bytes.bound width := by
      rw [← Int.add_emod_right, Int.emod_eq_of_lt (by omega) (by omega)]
    rw [hmod, if_neg (by omega), Int.toNat_of_nonneg (by omega), Int.add_sub_cancel]

lemma signed_of_signedWord? {width : Nat} {n : Int} {bs rest : Bytes}
    (h : signedWord? width bs = some (n, rest)) : Signed width n := by
  obtain ⟨⟨word, rest'⟩, hword, heq⟩ := Option.map_eq_some_iff.1 h
  obtain ⟨rfl, -⟩ := Prod.mk.inj heq
  have hbound := lt_bound_of_word? hword
  unfold Signed
  split <;> omega

/-! ### Heads -/

/-- The numbers that a form is for. -/
def IntForm.Holds : IntForm → Int → Prop
  | .u8 => Unsigned 1
  | .u16 => Unsigned 2
  | .u32 => Unsigned 4
  | .u64 => Unsigned 8
  | .i8 => Signed 1
  | .i16 => Signed 2
  | .i32 => Signed 4
  | .i64 => Signed 8

/-- The number in a head has room in its word. -/
def Head.Fits : Head → Prop
  | .int form n => form.Holds n
  | .str n | .bin n | .arr n | .map n | .ext n => n < Bytes.bound 4
  | _ => True

namespace Head

/-- A mark announces a head whose number is a word of so many octets. -/
structure Announces (mark : UInt8) (width : Nat) (head : Nat → Head) : Prop where
  low : 0xc0 ≤ mark.toNat
  high : mark.toNat < 0xe0
  read : ∀ bs, readMarked? mark.toNat bs = (word? width bs).map fun found => (head found.1, found.2)

/-- A mark announces an integer in a signed form of so many octets. -/
structure AnnouncesSigned (mark : UInt8) (width : Nat) (form : IntForm) : Prop where
  low : 0xc0 ≤ mark.toNat
  high : mark.toNat < 0xe0
  read : ∀ bs, readMarked? mark.toNat bs
    = (signedWord? width bs).map fun found => (.int form found.1, found.2)

variable {mark : UInt8} {width : Nat} {head : Nat → Head} {form : IntForm}

lemma read?_marked (hlow : 0xc0 ≤ mark.toNat) (hhigh : mark.toNat < 0xe0) (n : Nat)
    (rest : Bytes) : read? (marked mark width n ++ rest)
      = readMarked? mark.toNat (Bytes.ofNatBE width n ++ rest) := by
  simp only [marked, List.cons_append, read?]
  rw [if_neg (by omega), if_neg (by omega), if_neg (by omega), if_neg (by omega), if_pos hhigh]

namespace Announces

lemma read?_word (h : Announces mark width head) {n : Nat} (hn : n < Bytes.bound width)
    (rest : Bytes) : read? (marked mark width n ++ rest) = some (head n, rest) := by
  rw [read?_marked h.low h.high, h.read, word?_ofNatBE hn, Option.map_some]

lemma read?_unsigned (h : Announces mark width fun n => .int form n) {n : Int}
    (hn : Unsigned width n) (rest : Bytes) :
    read? (marked mark width n.toNat ++ rest) = some (.int form n, rest) := by
  obtain ⟨hnonneg, hbound⟩ := hn
  have hword : n.toNat < Bytes.bound width := by omega
  rw [h.read?_word hword, Int.toNat_of_nonneg hnonneg]

end Announces

lemma AnnouncesSigned.read?_signed (h : AnnouncesSigned mark width form) {n : Int}
    (hn : Signed width n) (rest : Bytes) :
    read? (markedSigned mark width n ++ rest) = some (.int form n, rest) := by
  rw [markedSigned, read?_marked h.low h.high, h.read, signedWord?_ofNatBE hn, Option.map_some]

/-- A length is read back from the shortest of three words. -/
lemma read?_length {mark8 mark16 mark32 : UInt8} (h8 : Announces mark8 1 head)
    (h16 : Announces mark16 2 head) (h32 : Announces mark32 4 head) {n : Nat}
    (hn : n < Bytes.bound 4) (rest : Bytes) :
    read? (markedLength mark8 mark16 mark32 n ++ rest) = some (head n, rest) := by
  unfold markedLength
  split
  · next hsmall => exact h8.read?_word hsmall rest
  · split
    · next hmiddle => exact h16.read?_word hmiddle rest
    · exact h32.read?_word hn rest

lemma toNat_octet {n : Nat} (h : n < 256) : (UInt8.ofNat n).toNat = n :=
  UInt8.toNat_ofNat_of_lt h

lemma read?_writeInt {n : Int} (h : form.Holds n) (rest : Bytes) :
    read? (writeInt form n ++ rest) = some (.int form n, rest) := by
  cases form with
  | u8 =>
    have hrange : 0 ≤ n ∧ n < 256 := h
    have hmark : Announces 0xcc 1 fun n => .int .u8 n := ⟨by decide, by decide, fun _ => rfl⟩
    simp only [writeInt]
    split
    · next hsmall =>
      have hoctet : (UInt8.ofNat n.toNat).toNat = n.toNat := toNat_octet (by omega)
      have hnat : ((n.toNat : Nat) : Int) = n := Int.toNat_of_nonneg hrange.1
      simp only [List.cons_append, List.nil_append, read?, hoctet, hnat]
      rw [if_pos (by omega)]
    · exact hmark.read?_unsigned h rest
  | u16 =>
    have hmark : Announces 0xcd 2 fun n => .int .u16 n := ⟨by decide, by decide, fun _ => rfl⟩
    exact hmark.read?_unsigned h rest
  | u32 =>
    have hmark : Announces 0xce 4 fun n => .int .u32 n := ⟨by decide, by decide, fun _ => rfl⟩
    exact hmark.read?_unsigned h rest
  | u64 =>
    have hmark : Announces 0xcf 8 fun n => .int .u64 n := ⟨by decide, by decide, fun _ => rfl⟩
    exact hmark.read?_unsigned h rest
  | i8 =>
    have hmark : AnnouncesSigned 0xd0 1 .i8 := ⟨by decide, by decide, fun _ => rfl⟩
    simp only [writeInt]
    split
    · next hsmall =>
      have hoctet : (UInt8.ofNat (n + 256).toNat).toNat = (n + 256).toNat :=
        toNat_octet (by omega)
      have hnat : (((n + 256).toNat : Nat) : Int) - 256 = n := by omega
      simp only [List.cons_append, List.nil_append, read?, hoctet, hnat]
      rw [if_neg (by omega), if_neg (by omega), if_neg (by omega), if_neg (by omega),
        if_neg (by omega)]
    · exact hmark.read?_signed h rest
  | i16 =>
    have hmark : AnnouncesSigned 0xd1 2 .i16 := ⟨by decide, by decide, fun _ => rfl⟩
    exact hmark.read?_signed h rest
  | i32 =>
    have hmark : AnnouncesSigned 0xd2 4 .i32 := ⟨by decide, by decide, fun _ => rfl⟩
    exact hmark.read?_signed h rest
  | i64 =>
    have hmark : AnnouncesSigned 0xd3 8 .i64 := ⟨by decide, by decide, fun _ => rfl⟩
    exact hmark.read?_signed h rest

/-- A head whose number has room in its word is read back. -/
theorem read?_write {head : Head} (h : head.Fits) (rest : Bytes) :
    read? (head.write ++ rest) = some (head, rest) := by
  cases head with
  | nil => rfl
  | bool value => cases value <;> rfl
  | int form n => exact read?_writeInt h rest
  | float32 bits =>
    have hmark : Announces 0xca 4 fun n => .float32 (UInt32.ofNat n) :=
      ⟨by decide, by decide, fun _ => rfl⟩
    rw [write, hmark.read?_word bits.toNat_lt, UInt32.ofNat_toNat]
  | float64 value =>
    have hmark : Announces 0xcb 8 fun n => .float64 ⟨UInt64.ofNat n⟩ :=
      ⟨by decide, by decide, fun _ => rfl⟩
    rw [write, hmark.read?_word value.bits.toNat_lt, UInt64.ofNat_toNat]
  | str n =>
    have h8 : Announces 0xd9 1 str := ⟨by decide, by decide, fun _ => rfl⟩
    have h16 : Announces 0xda 2 str := ⟨by decide, by decide, fun _ => rfl⟩
    have h32 : Announces 0xdb 4 str := ⟨by decide, by decide, fun _ => rfl⟩
    simp only [write]
    split
    · next hsmall =>
      have hoctet : (UInt8.ofNat (0xa0 + n)).toNat = 0xa0 + n := toNat_octet (by omega)
      simp only [List.cons_append, List.nil_append, read?, hoctet]
      rw [if_neg (by omega), if_neg (by omega), if_neg (by omega), if_pos (by omega),
        Nat.add_sub_cancel_left]
    · exact read?_length h8 h16 h32 h rest
  | bin n =>
    have h8 : Announces 0xc4 1 bin := ⟨by decide, by decide, fun _ => rfl⟩
    have h16 : Announces 0xc5 2 bin := ⟨by decide, by decide, fun _ => rfl⟩
    have h32 : Announces 0xc6 4 bin := ⟨by decide, by decide, fun _ => rfl⟩
    exact read?_length h8 h16 h32 h rest
  | arr n =>
    have h16 : Announces 0xdc 2 arr := ⟨by decide, by decide, fun _ => rfl⟩
    have h32 : Announces 0xdd 4 arr := ⟨by decide, by decide, fun _ => rfl⟩
    simp only [write]
    split
    · next hsmall =>
      have hoctet : (UInt8.ofNat (0x90 + n)).toNat = 0x90 + n := toNat_octet (by omega)
      simp only [List.cons_append, List.nil_append, read?, hoctet]
      rw [if_neg (by omega), if_neg (by omega), if_pos (by omega), Nat.add_sub_cancel_left]
    · split
      · next hmiddle => exact h16.read?_word hmiddle rest
      · exact h32.read?_word h rest
  | map n =>
    have h16 : Announces 0xde 2 map := ⟨by decide, by decide, fun _ => rfl⟩
    have h32 : Announces 0xdf 4 map := ⟨by decide, by decide, fun _ => rfl⟩
    simp only [write]
    split
    · next hsmall =>
      have hoctet : (UInt8.ofNat (0x80 + n)).toNat = 0x80 + n := toNat_octet (by omega)
      simp only [List.cons_append, List.nil_append, read?, hoctet]
      rw [if_neg (by omega), if_pos (by omega), Nat.add_sub_cancel_left]
    · split
      · next hmiddle => exact h16.read?_word hmiddle rest
      · exact h32.read?_word h rest
  | ext n =>
    have h8 : Announces 0xc7 1 ext := ⟨by decide, by decide, fun _ => rfl⟩
    have h16 : Announces 0xc8 2 ext := ⟨by decide, by decide, fun _ => rfl⟩
    have h32 : Announces 0xc9 4 ext := ⟨by decide, by decide, fun _ => rfl⟩
    exact read?_length h8 h16 h32 h rest

/-! ### What is read has room -/

lemma fits_of_word (head : Nat → Head) {width : Nat} {bs rest : Bytes} {found : Head}
    (h : (word? width bs).map (fun word => (head word.1, word.2)) = some (found, rest))
    (hfits : ∀ n < Bytes.bound width, (head n).Fits) : found.Fits := by
  obtain ⟨⟨n, rest'⟩, hword, heq⟩ := Option.map_eq_some_iff.1 h
  obtain ⟨rfl, -⟩ := Prod.mk.inj heq
  exact hfits n (lt_bound_of_word? hword)

lemma fits_of_signedWord {form : IntForm} {width : Nat} {bs rest : Bytes} {found : Head}
    (h : (signedWord? width bs).map (fun word => (Head.int form word.1, word.2))
      = some (found, rest)) (hholds : ∀ n, Signed width n → form.Holds n) : found.Fits := by
  obtain ⟨⟨n, rest'⟩, hword, heq⟩ := Option.map_eq_some_iff.1 h
  obtain ⟨rfl, -⟩ := Prod.mk.inj heq
  exact hholds n (signed_of_signedWord? hword)

lemma fits_of_readMarked? {mark : Nat} {bs rest : Bytes} {head : Head}
    (h : readMarked? mark bs = some (head, rest)) : head.Fits := by
  have hlength1 : ∀ n < Bytes.bound 1, n < Bytes.bound 4 := fun n hn => hn.trans (by decide)
  have hlength2 : ∀ n < Bytes.bound 2, n < Bytes.bound 4 := fun n hn => hn.trans (by decide)
  have hunsigned : ∀ {width}, ∀ n < Bytes.bound width, Unsigned width (n : Int) :=
    fun n hn => ⟨Int.natCast_nonneg n, Int.ofNat_lt.2 hn⟩
  have hfixed : ∀ {fixed : Head}, some (fixed, bs) = some (head, rest) → fixed.Fits →
      head.Fits := by
    intro fixed heq hfits
    obtain ⟨rfl, -⟩ := Prod.mk.inj (Option.some.inj heq)
    exact hfits
  -- One case for each mark, in the order of the marks.
  unfold readMarked? at h
  split at h
  case h_1 | h_2 | h_3 => exact hfixed h trivial
  case h_4 => exact fits_of_word .bin h hlength1
  case h_5 => exact fits_of_word .bin h hlength2
  case h_6 => exact fits_of_word .bin h fun _ hn => hn
  case h_7 => exact fits_of_word .ext h hlength1
  case h_8 => exact fits_of_word .ext h hlength2
  case h_9 => exact fits_of_word .ext h fun _ hn => hn
  case h_10 => exact fits_of_word (fun n => .float32 (UInt32.ofNat n)) h fun _ _ => trivial
  case h_11 => exact fits_of_word (fun n => .float64 ⟨UInt64.ofNat n⟩) h fun _ _ => trivial
  case h_12 => exact fits_of_word (fun n => .int .u8 n) h hunsigned
  case h_13 => exact fits_of_word (fun n => .int .u16 n) h hunsigned
  case h_14 => exact fits_of_word (fun n => .int .u32 n) h hunsigned
  case h_15 => exact fits_of_word (fun n => .int .u64 n) h hunsigned
  case h_16 | h_17 | h_18 | h_19 => exact fits_of_signedWord h fun _ hn => hn
  case h_20 | h_21 | h_22 | h_23 | h_24 => exact hfixed h (by decide : _ < Bytes.bound 4)
  case h_25 => exact fits_of_word .str h hlength1
  case h_26 => exact fits_of_word .str h hlength2
  case h_27 => exact fits_of_word .str h fun _ hn => hn
  case h_28 => exact fits_of_word .arr h hlength2
  case h_29 => exact fits_of_word .arr h fun _ hn => hn
  case h_30 => exact fits_of_word .map h hlength2
  case h_31 => exact fits_of_word .map h fun _ hn => hn
  case h_32 => simp at h

/-- Whatever the octets are, the head that is read has room for its number. -/
theorem fits_of_read? {bs rest : Bytes} {head : Head} (h : read? bs = some (head, rest)) :
    head.Fits := by
  cases bs with
  | nil => simp [read?] at h
  | cons b bs =>
    have hoctet : b.toNat < 256 := b.toNat_lt
    have hfixed : ∀ {fixed : Head}, some (fixed, bs) = some (head, rest) → fixed.Fits →
        head.Fits := by
      intro fixed heq hfits
      obtain ⟨rfl, -⟩ := Prod.mk.inj (Option.some.inj heq)
      exact hfits
    have hbound : Bytes.bound 4 = 4294967296 := rfl
    simp only [read?] at h
    split at h
    · exact hfixed h ⟨by omega, by change (b.toNat : Int) < 256; omega⟩
    · split at h
      · exact hfixed h (by change _ < Bytes.bound 4; omega)
      · split at h
        · exact hfixed h (by change _ < Bytes.bound 4; omega)
        · split at h
          · exact hfixed h (by change _ < Bytes.bound 4; omega)
          · split at h
            · exact fits_of_readMarked? h
            · refine hfixed h ⟨?_, ?_⟩
              · change -256 ≤ 2 * ((b.toNat : Int) - 256)
                omega
              · change 2 * ((b.toNat : Int) - 256) < 256
                omega

end Head

/-- The shortest form of a number below 2^64 is for it. -/
lemma IntForm.shortest_holds {n : Nat} (h : n < Bytes.bound 8) : (IntForm.shortest n).Holds n := by
  have hform : IntForm.shortest n = if n < 0x100 then .u8 else if n < 0x10000 then .u16
    else if n < 0x100000000 then .u32 else .u64 := rfl
  rw [hform]
  split
  · next hsmall => exact ⟨by omega, Int.ofNat_lt.2 hsmall⟩
  · split
    · next hsmall => exact ⟨by omega, Int.ofNat_lt.2 hsmall⟩
    · split
      · next hsmall => exact ⟨by omega, Int.ofNat_lt.2 hsmall⟩
      · exact ⟨by omega, Int.ofNat_lt.2 h⟩

/-- A number that some form is for is not below -2^63 and is below 2^64. -/
lemma IntForm.Holds.bounds {form : IntForm} {n : Int} (h : form.Holds n) :
    -Bytes.bound 8 ≤ 2 * n ∧ n < Bytes.bound 8 := by
  have h1 : Bytes.bound 1 = 256 := rfl
  have h2 : Bytes.bound 2 = 65536 := rfl
  have h4 : Bytes.bound 4 = 4294967296 := rfl
  have h8 : Bytes.bound 8 = 18446744073709551616 := rfl
  cases form <;> obtain ⟨hlow, hhigh⟩ := h <;> omega

/-- A number that some form is for can be written in its shortest form. -/
theorem IntForm.Holds.shortest {form : IntForm} {n : Int} (h : form.Holds n) :
    (IntForm.shortest n).Holds n := by
  obtain ⟨hlow, hhigh⟩ := h.bounds
  cases n with
  | ofNat n => exact shortest_holds (Int.ofNat_lt.1 hhigh)
  | negSucc n =>
    have hvalue : Int.negSucc n = -(n : Int) - 1 := by omega
    have hform : IntForm.shortest (.negSucc n) = if n < 0x80 then .i8 else if n < 0x8000 then .i16
      else if n < 0x80000000 then .i32 else .i64 := rfl
    have h1 : (Bytes.bound 1 : Int) = 256 := rfl
    have h2 : (Bytes.bound 2 : Int) = 65536 := rfl
    have h4 : (Bytes.bound 4 : Int) = 4294967296 := rfl
    have hsigned : ∀ width : Nat, 2 * ((n : Int) + 1) ≤ Bytes.bound width →
        Signed width (.negSucc n) := fun width hroom => ⟨by omega, by omega⟩
    rw [hform]
    split
    · exact hsigned 1 (by omega)
    · split
      · exact hsigned 2 (by omega)
      · split
        · exact hsigned 4 (by omega)
        · exact hsigned 8 (by omega)

end CodeGraph.Pack
