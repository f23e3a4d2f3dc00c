import Mathlib
import CodeGraph.Proofs.Pack.Json
import CodeGraph.Proofs.Pack.Value

/-!
# Documents and their values

A JSON value can be read straight from octets, or from the item that was read from them.  For
what has been written both ways agree: an item that can be written and that stands for a value
is read as this value (`Json.unpackValue_write_ofItem`).  The induction follows the item; there
is one lemma about texts that serve as keys, one about lists of items and one about entries.

A record stands for the object of the values for which its fields stand
(`Json.StandFor.ofItem_record`).
-/

namespace CodeGraph.Json

open Pack

variable {depth : Nat}

/-! ### Both ways of reading -/

/-- What an item gives as a key is read as the key from its octets. -/
lemma unpackKey_write_keyOfItem (mayNest : Bool) {isFirst : Bool} {item : Item} {key : String}
    (h : item.Fits depth) (hkey : keyOfItem isFirst item = .ok key) (rest : Bytes) :
    unpackKey mayNest isFirst (item.write ++ rest) = .ok (key, rest) := by
  cases h with
  | @str _ s hlength =>
    obtain rfl : s = key := Except.ok.inj hkey
    have hhead : (Head.str (Utf8.encode s).length).Fits := hlength
    rw [unpackKey, Item.write, List.append_assoc, Head.read?_write hhead]
    exact unpackText_encode s rest
  | @bin _ content hlength =>
    have hhead : (Head.bin content.length).Fits := hlength
    rw [unpackKey, Item.write, List.append_assoc, Head.read?_write hhead]
    simp only [orMalformed, bind, Except.bind, Bytes.take?_append]
    cases isFirst with
    | true => cases hkey
    | false =>
      simp only [keyOfItem, Bool.false_eq_true, if_false, Item.asText] at hkey
      cases hdecode : Utf8.decode? content with
      | none =>
        rw [hdecode] at hkey
        cases hkey
      | some s =>
        rw [hdecode] at hkey
        obtain rfl := Except.ok.inj hkey
        rfl
  | _ => cases hkey

section Inside

variable {items : List Item} {entries : List (Item × Item)}

lemma unpackItems_writeItems {values : List Json}
    (hread : ∀ item ∈ items, ∀ value, ofItem item = .ok value →
      ∀ rest, unpackValue depth (item.write ++ rest) = .ok (value, rest))
    (hvalues : ofItems items = .ok values) (rest : Bytes) :
    unpackItems (unpackValue depth) items.length (Item.writeItems items ++ rest)
      = .ok (values, rest) := by
  induction items generalizing values with
  | nil =>
    obtain rfl := Except.ok.inj hvalues
    rfl
  | cons item items ih =>
    simp only [ofItems, bind_eq_ok_iff, pure, Except.pure, Except.ok.injEq] at hvalues
    obtain ⟨value, hvalue, others, hothers, rfl⟩ := hvalues
    have hfirst := hread item List.mem_cons_self value hvalue (Item.writeItems items ++ rest)
    have hrest := ih (fun other hother => hread other (List.mem_cons_of_mem item hother)) hothers
    rw [Item.writeItems, List.append_assoc, List.length_cons, unpackItems, hfirst]
    simp only [bind, Except.bind, hrest]
    rfl

lemma unpackMembers_writeEntries (mayNest : Bool) {members : List (String × Json)} {isFirst : Bool}
    (hkeys : ∀ entry ∈ entries, entry.1.Fits depth)
    (hread : ∀ entry ∈ entries, ∀ value, ofItem entry.2 = .ok value →
      ∀ rest, unpackValue depth (entry.2.write ++ rest) = .ok (value, rest))
    (hmembers : ofEntries isFirst entries = .ok members) (rest : Bytes) :
    unpackMembers ⟨mayNest, unpackValue depth⟩ isFirst entries.length
      (Item.writeEntries entries ++ rest) = .ok (members, rest) := by
  induction entries generalizing isFirst members with
  | nil =>
    obtain rfl := Except.ok.inj hmembers
    rfl
  | cons entry entries ih =>
    obtain ⟨keyItem, item⟩ := entry
    simp only [ofEntries, bind_eq_ok_iff, pure, Except.pure, Except.ok.injEq] at hmembers
    obtain ⟨key, hkey, value, hvalue, others, hothers, rfl⟩ := hmembers
    have hfirst := unpackKey_write_keyOfItem mayNest
      (hkeys (keyItem, item) List.mem_cons_self) hkey
      (item.write ++ (Item.writeEntries entries ++ rest))
    have hitem := hread (keyItem, item) List.mem_cons_self value hvalue
      (Item.writeEntries entries ++ rest)
    have hrest := ih (fun other hother => hkeys other (List.mem_cons_of_mem _ hother))
      (fun other hother => hread other (List.mem_cons_of_mem _ hother)) hothers
    simp only at hitem
    rw [Item.writeEntries, List.append_assoc, List.append_assoc, List.length_cons,
      unpackMembers, hfirst]
    simp only [bind, Except.bind, hitem, hrest]
    rfl

end Inside

/-- An item that can be written is read straight from its octets as the value for which it
stands, whatever follows. -/
theorem unpackValue_write_ofItem {item : Item} (h : item.Fits depth) {value : Json}
    (hvalue : ofItem item = .ok value) (rest : Bytes) :
    unpackValue depth (item.write ++ rest) = .ok (value, rest) := by
  induction h generalizing value rest with
  | nil =>
    obtain rfl := Except.ok.inj hvalue
    have hhead : Head.nil.Fits := trivial
    exact unpackValue_write hhead rest
  | @bool depth b =>
    obtain rfl := Except.ok.inj hvalue
    have hhead : (Head.bool b).Fits := trivial
    exact unpackValue_write hhead rest
  | @int depth form n hholds =>
    obtain rfl := Except.ok.inj hvalue
    have hhead : (Head.int form n).Fits := hholds
    exact unpackValue_write hhead rest
  | @float32 depth bits =>
    obtain rfl := Except.ok.inj hvalue
    have hhead : (Head.float32 bits).Fits := trivial
    exact unpackValue_write hhead rest
  | @float64 depth x =>
    obtain rfl := Except.ok.inj hvalue
    have hhead : (Head.float64 x).Fits := trivial
    exact unpackValue_write hhead rest
  | @str depth s hlength =>
    obtain rfl := Except.ok.inj hvalue
    have hhead : (Head.str (Utf8.encode s).length).Fits := hlength
    rw [Item.write, List.append_assoc, unpackValue_write hhead]
    simp only [unpackBody, unpackText_encode]
    rfl
  | @arr depth items hcount _ ih =>
    rw [ofItem] at hvalue
    obtain ⟨values, hvalues, rfl⟩ := map_eq_ok_iff.1 hvalue
    have hhead : (Head.arr items.length).Fits := hcount
    have hread := unpackItems_writeItems (fun item hitem _ hv => ih item hitem hv) hvalues rest
    rw [Item.write, List.append_assoc, unpackValue_write hhead]
    simp only [interior?, unpackBody, hread]
    rfl
  | @map depth entries hcount hkeys _ _ ih =>
    rw [ofItem] at hvalue
    obtain ⟨members, hmembers, rfl⟩ := map_eq_ok_iff.1 hvalue
    have hhead : (Head.map entries.length).Fits := hcount
    have hread := unpackMembers_writeEntries (depth != 0) hkeys
      (fun entry hentry _ hv => ih entry hentry hv) hmembers rest
    rw [Item.write, List.append_assoc, unpackValue_write hhead]
    simp only [interior?, unpackBody, hread]
    rfl
  | bin => cases hvalue
  | ext => cases hvalue

/-- A document is read as the value for which its item stands. -/
lemma unpack_write_ofItem {item : Item} (h : item.Fits maxNesting) {value : Json}
    (hvalue : ofItem item = .ok value) : unpack item.write = .ok value := by
  have hread := unpackValue_write_ofItem h hvalue []
  rw [List.append_nil] at hread
  rw [unpack, hread]
  rfl

/-! ### Items that stand for values -/

/-- Whether an item stands for a JSON value. -/
def Readable (item : Item) : Prop :=
  ∃ value, ofItem item = .ok value

/-- Fields stand for members under the same names. -/
def StandFor : List (String × Item) → List (String × Json) → Prop :=
  List.Forall₂ fun field member => field.1 = member.1 ∧ ofItem field.2 = .ok member.2

lemma readable_arr {items : List Item} (h : ∀ item ∈ items, Readable item) :
    Readable (.arr items) := by
  obtain ⟨values, hvalues⟩ : ∃ values,
      List.Forall₂ (fun item value => ofItem item = .ok value) items values := by
    induction items with
    | nil => exact ⟨[], .nil⟩
    | cons item items ih =>
      obtain ⟨value, hvalue⟩ := h item List.mem_cons_self
      obtain ⟨values, hvalues⟩ := ih fun other hother => h other (List.mem_cons_of_mem item hother)
      exact ⟨value :: values, .cons hvalue hvalues⟩
  exact ⟨.arr values, map_eq_ok_iff.2 ⟨values, ofItems_eq_ok_iff.2 hvalues, rfl⟩⟩

/-- A list of things that are each written as an item. -/
lemma readable_arr_map {α : Type} {write : α → Item} (h : ∀ a, Readable (write a))
    (all : List α) : Readable (.arr (all.map write)) :=
  readable_arr (List.forall_mem_map.2 fun a _ => h a)

namespace StandFor

variable {fields : List (String × Item)} {members : List (String × Json)}

lemma names_eq (h : StandFor fields members) :
    fields.map Prod.fst = members.map Prod.fst := by
  induction h with
  | nil => rfl
  | cons hfirst _ ih => rw [List.map_cons, List.map_cons, hfirst.1, ih]

lemma ofEntries_eq (h : StandFor fields members) (isFirst : Bool) :
    ofEntries isFirst (fields.map fun field => (.str field.1, field.2)) = .ok members := by
  induction h generalizing isFirst with
  | nil => rfl
  | @cons field member fields members hfirst _ ih =>
    obtain ⟨name, item⟩ := field
    obtain ⟨key, value⟩ := member
    obtain ⟨rfl, hvalue⟩ : name = key ∧ ofItem item = .ok value := hfirst
    have hkey : keyOfItem isFirst (.str name) = .ok name := rfl
    simp only [List.map_cons, ofEntries, hkey, hvalue, ih false, bind, Except.bind, pure,
      Except.pure]

/-- A record stands for the object of what its fields stand for. -/
theorem ofItem_record (h : StandFor fields members) :
    ofItem (.record fields) = .ok (object members) :=
  map_eq_ok_iff.2 ⟨members, h.ofEntries_eq true, rfl⟩

end StandFor

lemma exists_standFor {fields : List (String × Item)} (h : ∀ field ∈ fields, Readable field.2) :
    ∃ members, StandFor fields members := by
  induction fields with
  | nil => exact ⟨[], .nil⟩
  | cons field fields ih =>
    obtain ⟨value, hvalue⟩ := h field List.mem_cons_self
    obtain ⟨members, hmembers⟩ := ih fun other hother => h other (List.mem_cons_of_mem _ hother)
    exact ⟨(field.1, value) :: members, .cons ⟨rfl, hvalue⟩ hmembers⟩

lemma readable_record {fields : List (String × Item)} (h : ∀ field ∈ fields, Readable field.2) :
    Readable (.record fields) := by
  obtain ⟨members, hmembers⟩ := exists_standFor h
  exact ⟨_, hmembers.ofItem_record⟩

end CodeGraph.Json
