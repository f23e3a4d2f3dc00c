import Mathlib
import CodeGraph.Pack.Item
import CodeGraph.Proofs.Pack.Head

/-!
# Items are read back

An item can be written when lengths have room in four octets, integers are among those of their
forms, and arrays, maps and extensions nest only so deep (`Item.Fits`).  Such an item is read
back from its octets, whatever follows them (`Item.read?_write`); and every item that is read
is of this kind, whatever the octets are (`Item.fits_of_read?`), since a text has as many octets
as were read for it.
-/

namespace CodeGraph

/-- A text that was decoded from octets is encoded as these octets. -/
lemma Utf8.encode_of_decode? {bs : Bytes} {s : String} (h : decode? bs = some s) :
    encode s = bs := by
  unfold decode? String.fromUTF8? at h
  split at h
  · obtain rfl := Option.some.inj h
    rfl
  · simp at h

namespace Pack.Item

/-- Whether an item can be written whose arrays, maps and extensions nest at most `depth`
deep. -/
inductive Fits : (depth : Nat) → Item → Prop
  | nil {depth : Nat} : Fits depth .nil
  | bool {depth : Nat} {value : Bool} : Fits depth (.bool value)
  | int {depth : Nat} {form : IntForm} {value : Int} (h : form.Holds value) :
      Fits depth (.int form value)
  | float32 {depth : Nat} {bits : UInt32} : Fits depth (.float32 bits)
  | float64 {depth : Nat} {value : Binary64} : Fits depth (.float64 value)
  | str {depth : Nat} {value : String} (h : (Utf8.encode value).length < Bytes.bound 4) :
      Fits depth (.str value)
  | bin {depth : Nat} {content : Bytes} (h : content.length < Bytes.bound 4) :
      Fits depth (.bin content)
  | arr {depth : Nat} {items : List Item} (hcount : items.length < Bytes.bound 4)
      (h : ∀ item ∈ items, Fits depth item) : Fits (depth + 1) (.arr items)
  | map {depth : Nat} {entries : List (Item × Item)} (hcount : entries.length < Bytes.bound 4)
      (hkeys : ∀ entry ∈ entries, Fits depth entry.1)
      (hvalues : ∀ entry ∈ entries, Fits depth entry.2) : Fits (depth + 1) (.map entries)
  | ext {depth : Nat} {kind : UInt8} {content : Bytes} (h : content.length < Bytes.bound 4) :
      Fits (depth + 1) (.ext kind content)

/-- Whether a field of a record can be written, its item nesting at most `depth` deep. -/
structure FieldFits (depth : Nat) (field : String × Item) : Prop where
  name : (Utf8.encode field.1).length < Bytes.bound 4
  item : field.2.Fits depth

lemma fits_record {depth : Nat} {fields : List (String × Item)}
    (hcount : fields.length < Bytes.bound 4) (h : ∀ field ∈ fields, FieldFits depth field) :
    (record fields).Fits (depth + 1) := by
  refine .map ?_ (List.forall_mem_map.2 fun field hfield => .str (h field hfield).name)
    (List.forall_mem_map.2 fun field hfield => (h field hfield).item)
  rw [List.length_map]
  exact hcount

/-- How what lies inside an item is read. -/
def inner? : (depth : Nat) → Option (Bytes → Option (Item × Bytes))
  | 0 => none
  | depth + 1 => some (read? depth)

lemma read?_eq (depth : Nat) (bs : Bytes) :
    read? depth bs
      = (Head.read? bs).bind fun found => readBody? (inner? depth) found.1 found.2 := by
  cases depth <;> rfl

/-! ### What can be written is read back -/

section Written

variable {depth : Nat}

/-- Behind a head that was written is read what the head announces. -/
lemma read?_head {head : Head} (h : head.Fits) (bs : Bytes) :
    read? depth (head.write ++ bs) = readBody? (inner? depth) head bs := by
  rw [read?_eq, Head.read?_write h, Option.bind_some]

lemma readMany?_writeItems {items : List Item}
    (h : ∀ item ∈ items, ∀ rest, read? depth (item.write ++ rest) = some (item, rest))
    (rest : Bytes) :
    readMany? (read? depth) items.length (writeItems items ++ rest) = some (items, rest) := by
  induction items with
  | nil => rfl
  | cons item items ih =>
    have hitem := h item List.mem_cons_self (writeItems items ++ rest)
    have hothers := ih fun other hother => h other (List.mem_cons_of_mem item hother)
    rw [writeItems, List.append_assoc, List.length_cons]
    simp only [readMany?, hitem, hothers, Option.bind_eq_bind, Option.bind_some, Option.pure_def]

lemma readMany?_writeEntries {entries : List (Item × Item)}
    (hkeys : ∀ entry ∈ entries, ∀ rest,
      read? depth (entry.1.write ++ rest) = some (entry.1, rest))
    (hvalues : ∀ entry ∈ entries, ∀ rest,
      read? depth (entry.2.write ++ rest) = some (entry.2, rest)) (rest : Bytes) :
    readMany? (readPair? (read? depth) (read? depth)) entries.length
      (writeEntries entries ++ rest) = some (entries, rest) := by
  induction entries with
  | nil => rfl
  | cons entry entries ih =>
    obtain ⟨key, value⟩ := entry
    have hkey := hkeys (key, value) List.mem_cons_self
      (value.write ++ (writeEntries entries ++ rest))
    have hvalue := hvalues (key, value) List.mem_cons_self (writeEntries entries ++ rest)
    have hothers := ih (fun other hother => hkeys other (List.mem_cons_of_mem _ hother))
      fun other hother => hvalues other (List.mem_cons_of_mem _ hother)
    rw [writeEntries, List.append_assoc, List.append_assoc, List.length_cons]
    simp only at hkey hvalue
    simp only [readMany?, readPair?, hkey, hvalue, hothers, Option.bind_eq_bind,
      Option.bind_some, Option.pure_def]

/-- An item that can be written is read back. -/
theorem read?_write {item : Item} (h : item.Fits depth) (rest : Bytes) :
    read? depth (item.write ++ rest) = some (item, rest) := by
  induction h generalizing rest with
  | nil =>
    have hhead : Head.nil.Fits := trivial
    exact read?_head hhead rest
  | @bool depth value =>
    have hhead : (Head.bool value).Fits := trivial
    exact read?_head hhead rest
  | @int depth form value h =>
    have hhead : (Head.int form value).Fits := h
    exact read?_head hhead rest
  | @float32 depth bits =>
    have hhead : (Head.float32 bits).Fits := trivial
    exact read?_head hhead rest
  | @float64 depth value =>
    have hhead : (Head.float64 value).Fits := trivial
    exact read?_head hhead rest
  | @str depth value h =>
    have hhead : (Head.str (Utf8.encode value).length).Fits := h
    rw [write, List.append_assoc, read?_head hhead]
    simp only [readBody?, Bytes.take?_append, Option.map_some, Utf8.decode?_encode]
  | @bin depth content h =>
    have hhead : (Head.bin content.length).Fits := h
    rw [write, List.append_assoc, read?_head hhead]
    simp only [readBody?, Bytes.take?_append, Option.map_some]
  | @arr depth items hcount _ ih =>
    have hhead : (Head.arr items.length).Fits := hcount
    rw [write, List.append_assoc, read?_head hhead]
    simp only [inner?, readBody?, Option.bind_some, readMany?_writeItems ih, Option.map_some]
  | @map depth entries hcount _ _ hkeys hvalues =>
    have hhead : (Head.map entries.length).Fits := hcount
    rw [write, List.append_assoc, read?_head hhead]
    simp only [inner?, readBody?, Option.bind_some, readMany?_writeEntries hkeys hvalues,
      Option.map_some]
  | @ext depth kind content h =>
    have hhead : (Head.ext content.length).Fits := h
    rw [write, List.append_assoc, read?_head hhead]
    simp only [inner?, readBody?, List.cons_append, Bytes.take?_append, Option.map_some]

end Written

/-! ### What is read can be written -/

/-- Whatever is read has a property. -/
def Yields {α : Type} (read : Bytes → Option (α × Bytes)) (P : α → Prop) : Prop :=
  ∀ bs a rest, read bs = some (a, rest) → P a

/-- As many things are read as told. -/
lemma readMany?_spec {α : Type} {read : Bytes → Option (α × Bytes)} {P : α → Prop}
    (h : Yields read P) {count : Nat} {bs rest : Bytes}
    {found : List α} (hread : readMany? read count bs = some (found, rest)) :
    found.length = count ∧ ∀ a ∈ found, P a := by
  induction count generalizing bs rest found with
  | zero =>
    obtain ⟨rfl, -⟩ := Prod.mk.inj (Option.some.inj hread)
    simp
  | succ count ih =>
    simp only [readMany?, Option.bind_eq_bind, Option.bind_eq_some_iff, Option.pure_def,
      Option.some_inj, Prod.exists, Prod.mk.injEq] at hread
    obtain ⟨a, bs', hfirst, others, bs'', hothers, rfl, -⟩ := hread
    obtain ⟨hlength, hall⟩ := ih hothers
    have ha : P a := h bs a bs' hfirst
    exact ⟨by rw [List.length_cons, hlength], List.forall_mem_cons.2 ⟨ha, hall⟩⟩

lemma Yields.readPair? {read : Bytes → Option (Item × Bytes)} {P : Item → Prop}
    (h : Yields read P) : Yields (readPair? read read) fun entry => P entry.1 ∧ P entry.2 := by
  intro bs entry rest hread
  simp only [Item.readPair?, Option.bind_eq_bind, Option.bind_eq_some_iff, Option.pure_def,
    Option.some_inj, Prod.exists, Prod.mk.injEq] at hread
  obtain ⟨key, bs', hkey, value, bs'', hvalue, rfl, -⟩ := hread
  exact ⟨h bs key bs' hkey, h bs' value bs'' hvalue⟩

/-- Behind a head lies an item that can be written, if this is so of what lies inside. -/
lemma fits_of_readBody? {depth : Nat} {inner : Option (Bytes → Option (Item × Bytes))}
    (hinner : ∀ read ∈ inner, ∃ below, depth = below + 1 ∧ Yields read (Fits below))
    {head : Head} (hhead : head.Fits) {bs rest : Bytes} {item : Item}
    (h : readBody? inner head bs = some (item, rest)) : item.Fits depth := by
  cases head with
  | nil =>
    obtain ⟨rfl, -⟩ := Prod.mk.inj (Option.some.inj h)
    exact .nil
  | bool value =>
    obtain ⟨rfl, -⟩ := Prod.mk.inj (Option.some.inj h)
    exact .bool
  | int form value =>
    obtain ⟨rfl, -⟩ := Prod.mk.inj (Option.some.inj h)
    exact .int hhead
  | float32 bits =>
    obtain ⟨rfl, -⟩ := Prod.mk.inj (Option.some.inj h)
    exact .float32
  | float64 value =>
    obtain ⟨rfl, -⟩ := Prod.mk.inj (Option.some.inj h)
    exact .float64
  | str n =>
    obtain ⟨⟨field, rest'⟩, htake, heq⟩ := Option.map_eq_some_iff.1 h
    obtain rfl : field.length = n := (Bytes.append_of_take? htake).2
    simp only at heq
    split at heq
    · next s hdecode =>
      obtain ⟨rfl, -⟩ := Prod.mk.inj heq
      refine .str ?_
      rw [Utf8.encode_of_decode? hdecode]
      exact hhead
    · obtain ⟨rfl, -⟩ := Prod.mk.inj heq
      exact .bin hhead
  | bin n =>
    obtain ⟨⟨field, rest'⟩, htake, heq⟩ := Option.map_eq_some_iff.1 h
    obtain rfl : field.length = n := (Bytes.append_of_take? htake).2
    obtain ⟨rfl, -⟩ := Prod.mk.inj heq
    exact .bin hhead
  | arr n =>
    obtain ⟨read, hread, h⟩ := Option.bind_eq_some_iff.1 h
    obtain ⟨below, rfl, hfits⟩ := hinner read hread
    obtain ⟨⟨items, rest'⟩, hitems, heq⟩ := Option.map_eq_some_iff.1 h
    obtain ⟨rfl, -⟩ := Prod.mk.inj heq
    obtain ⟨rfl, hall⟩ := readMany?_spec hfits hitems
    exact .arr hhead hall
  | map n =>
    obtain ⟨read, hread, h⟩ := Option.bind_eq_some_iff.1 h
    obtain ⟨below, rfl, hfits⟩ := hinner read hread
    obtain ⟨⟨entries, rest'⟩, hentries, heq⟩ := Option.map_eq_some_iff.1 h
    obtain ⟨rfl, -⟩ := Prod.mk.inj heq
    obtain ⟨rfl, hall⟩ := readMany?_spec hfits.readPair? hentries
    exact .map hhead (fun entry hentry => (hall entry hentry).1)
      fun entry hentry => (hall entry hentry).2
  | ext n =>
    simp only [readBody?] at h
    split at h
    · next read kind bs' =>
      obtain ⟨below, rfl, -⟩ := hinner read rfl
      obtain ⟨⟨field, rest'⟩, htake, heq⟩ := Option.map_eq_some_iff.1 h
      obtain rfl : field.length = n := (Bytes.append_of_take? htake).2
      obtain ⟨rfl, -⟩ := Prod.mk.inj heq
      exact .ext hhead
    · simp at h

/-- Whatever the octets are, the item that is read can be written. -/
theorem fits_of_read? {depth : Nat} {bs rest : Bytes} {item : Item}
    (h : read? depth bs = some (item, rest)) : item.Fits depth := by
  induction depth generalizing bs item rest with
  | zero =>
    rw [read?_eq] at h
    obtain ⟨⟨head, bs'⟩, hhead, hbody⟩ := Option.bind_eq_some_iff.1 h
    exact fits_of_readBody? (by simp [inner?]) (Head.fits_of_read? hhead) hbody
  | succ depth ih =>
    rw [read?_eq] at h
    obtain ⟨⟨head, bs'⟩, hhead, hbody⟩ := Option.bind_eq_some_iff.1 h
    refine fits_of_readBody? (fun read hread => ?_) (Head.fits_of_read? hhead) hbody
    obtain rfl := Option.some.inj hread
    exact ⟨depth, rfl, fun _ _ _ => ih⟩

end Pack.Item

end CodeGraph
