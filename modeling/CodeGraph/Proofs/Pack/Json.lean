import Mathlib
import CodeGraph.Pack.Json
import CodeGraph.Proofs.Pack.Head

/-!
# JSON values are read back

An item that was written is read as a JSON value straight from its octets.  There is one lemma
for each way in which items are made (`Json.readAs_str`, `Json.readAs_arr`, `Json.readAs_record`,
...), so what a document is read as follows its structure; `Json.MembersReadAs` says the same of
the fields of a record.  Two things limit what can be read: how deep items may nest, and that
lengths are written in at most four octets.

Records are read as objects, whose members can be looked up by the keys of the fields when no
two of them are the same (`Json.lookup_sortMembers`).
-/

namespace CodeGraph

open Pack

/-! ### Members -/

namespace Json

variable {key : String}

/-- Looking up a key among the entries of a map gives what the map has under it. -/
lemma lookup_toList (map : Std.ExtTreeMap String Json) : map.toList.lookup key = map[key]? := by
  cases hlookup : map.toList.lookup key with
  | some value =>
    obtain ⟨before, after, hsplit, -⟩ := List.lookup_eq_some_iff.1 hlookup
    have hmem : (key, value) ∈ map.toList := by simp [hsplit]
    exact (Std.ExtTreeMap.mem_toList_iff_getElem?_eq_some.1 hmem).symm
  | none =>
    rw [List.lookup_eq_none_iff] at hlookup
    by_contra hsome
    obtain ⟨value, hvalue⟩ := Option.ne_none_iff_exists'.1 (Ne.symm hsome)
    have hmem := Std.ExtTreeMap.mem_toList_iff_getElem?_eq_some.2 hvalue
    simpa using hlookup _ hmem

/-- Sorting members does not change what they are, if their keys are all different. -/
theorem lookup_sortMembers {members : List (String × Json)}
    (hkeys : (members.map Prod.fst).Nodup) :
    (sortMembers members).lookup key = members.lookup key := by
  have hdistinct : members.Pairwise fun a b => ¬compare a.1 b.1 = .eq := by
    refine (List.pairwise_map.1 hkeys).imp fun hne heq => hne ?_
    exact Std.LawfulEqCmp.eq_of_compare heq
  rw [sortMembers, lookup_toList]
  cases hlookup : members.lookup key with
  | some value =>
    obtain ⟨before, after, rfl, -⟩ := List.lookup_eq_some_iff.1 hlookup
    exact Std.ExtTreeMap.getElem?_ofList_of_mem Std.ReflCmp.compare_self hdistinct (by simp)
  | none =>
    rw [List.lookup_eq_none_iff] at hlookup
    refine Std.ExtTreeMap.getElem?_ofList_of_contains_eq_false ?_
    rw [List.contains_eq_mem, decide_eq_false_iff_not, List.mem_map]
    rintro ⟨member, hmember, rfl⟩
    simpa using hlookup member hmember

/-! ### Reading items -/

/-- An item is read as a value where items may still nest `depth` deep, whatever follows it;
unless it is so long that its lengths may have no room in their words. -/
def ReadAs (depth : Nat) (item : Item) (value : Json) : Prop :=
  item.write.length < Bytes.bound 4 →
    ∀ rest, unpackValue depth (item.write ++ rest) = .ok (value, rest)

/-- How what lies inside an item is read. -/
def interior? : (depth : Nat) → Option Interior
  | 0 => none
  | depth + 1 => some ⟨depth != 0, unpackValue depth⟩

variable {depth : Nat}

/-- Behind a head that was written is read what the head announces. -/
lemma unpackValue_write {head : Head} (h : head.Fits) (bs : Bytes) :
    unpackValue depth (head.write ++ bs) = unpackBody (interior? depth) head bs := by
  have hread := Head.read?_write h bs
  cases depth with
  | zero =>
    rw [unpackValue, hread]
    rfl
  | succ depth =>
    rw [unpackValue, hread]
    rfl

lemma ReadAs.length_pos {item : Item} {value : Json} (h : ReadAs depth item value) :
    0 < item.write.length := by
  rw [List.length_pos_iff]
  intro hempty
  -- Nothing is read from no octets.
  have hread := h (by rw [hempty]; decide) []
  rw [hempty] at hread
  cases depth <;> cases hread

lemma readAs_bool (value : Bool) : ReadAs depth (.bool value) (.bool value) := by
  intro _ rest
  have hfits : (Head.bool value).Fits := trivial
  exact unpackValue_write hfits rest

lemma readAs_ofNat {n : Nat} (h : n < Bytes.bound 8) : ReadAs depth (.ofNat n) (.int n) := by
  intro _ rest
  have hfits : (Head.int (.shortest n) n).Fits := IntForm.shortest_holds h
  exact unpackValue_write hfits rest

lemma unpackText_encode (s : String) (rest : Bytes) :
    unpackText (Utf8.encode s).length (Utf8.encode s ++ rest) = .ok (s, rest) := by
  rw [unpackText, Bytes.take?_append]
  simp only [orMalformed, bind, Except.bind, Utf8.decode?_encode]
  rfl

lemma fits_str {s : String} (hlength : (Item.str s).write.length < Bytes.bound 4) :
    (Head.str (Utf8.encode s).length).Fits := by
  rw [Item.write, List.length_append] at hlength
  exact lt_of_le_of_lt (Nat.le_add_left ..) hlength

lemma readAs_str (s : String) : ReadAs depth (.str s) (.str s) := by
  intro hlength rest
  rw [Item.write, List.append_assoc, unpackValue_write (fits_str hlength)]
  simp only [unpackBody, unpackText_encode]
  rfl

/-! ### Arrays -/

variable {items : List Item} {values : List Json}

lemma length_le_writeItems (h : List.Forall₂ (ReadAs depth) items values) :
    items.length ≤ (Item.writeItems items).length := by
  induction h with
  | nil => exact Nat.zero_le _
  | cons hitem _ ih =>
    have hpos := hitem.length_pos
    rw [Item.writeItems, List.length_append, List.length_cons]
    omega

lemma unpackItems_write (h : List.Forall₂ (ReadAs depth) items values)
    (hlength : (Item.writeItems items).length < Bytes.bound 4) (rest : Bytes) :
    unpackItems (unpackValue depth) items.length (Item.writeItems items ++ rest)
      = .ok (values, rest) := by
  induction h with
  | nil => rfl
  | @cons item value items values hitem _ ih =>
    rw [Item.writeItems, List.length_append] at hlength
    have hfirst := hitem (by omega) (Item.writeItems items ++ rest)
    have hothers := ih (by omega)
    rw [Item.writeItems, List.append_assoc, List.length_cons, unpackItems, hfirst]
    simp only [bind, Except.bind, hothers]
    rfl

lemma readAs_arr (h : List.Forall₂ (ReadAs depth) items values) :
    ReadAs (depth + 1) (.arr items) (.arr values) := by
  intro hlength rest
  rw [Item.write, List.length_append] at hlength
  have hcount := length_le_writeItems h
  have hfits : (Head.arr items.length).Fits := by
    change items.length < Bytes.bound 4
    omega
  rw [Item.write, List.append_assoc, unpackValue_write hfits]
  simp only [interior?, unpackBody, unpackItems_write h (by omega)]
  rfl

/-! ### Records -/

/-- The octets of the fields of a record, one after the other. -/
def writeFields : List (String × Item) → Bytes
  | [] => []
  | (name, item) :: fields => (Item.str name).write ++ (item.write ++ writeFields fields)

lemma write_record (fields : List (String × Item)) :
    (Item.record fields).write = (Head.map fields.length).write ++ writeFields fields := by
  have hrecord : Item.record fields = .map (fields.map fun field => (.str field.1, field.2)) := rfl
  have hfields : ∀ fields : List (String × Item),
      Item.writeEntries (fields.map fun field => (.str field.1, field.2)) = writeFields fields := by
    intro fields
    induction fields with
    | nil => rfl
    | cons field fields ih => rw [List.map_cons, Item.writeEntries, ih, writeFields]
  rw [hrecord, Item.write, hfields, List.length_map]

/-- Fields are read as members under the same keys. -/
def MembersReadAs (depth : Nat) : List (String × Item) → List (String × Json) → Prop :=
  List.Forall₂ fun field member => field.1 = member.1 ∧ ReadAs depth field.2 member.2

namespace MembersReadAs

variable {fields fields' : List (String × Item)} {members members' : List (String × Json)}

lemma nil : MembersReadAs depth [] [] := List.Forall₂.nil

lemma cons {name : String} {item : Item} {value : Json} (h : ReadAs depth item value)
    (hothers : MembersReadAs depth fields members) :
    MembersReadAs depth ((name, item) :: fields) ((name, value) :: members) :=
  List.Forall₂.cons ⟨rfl, h⟩ hothers

lemma append (h : MembersReadAs depth fields members)
    (h' : MembersReadAs depth fields' members') :
    MembersReadAs depth (fields ++ fields') (members ++ members') :=
  List.rel_append h h'

lemma length_le (h : MembersReadAs depth fields members) :
    fields.length ≤ (writeFields fields).length := by
  induction h with
  | nil => exact Nat.zero_le _
  | @cons field _ _ _ hfield _ ih =>
    obtain ⟨name, item⟩ := field
    have hpos : 0 < item.write.length := hfield.2.length_pos
    simp only [writeFields, List.length_append, List.length_cons]
    omega

end MembersReadAs

lemma unpackKey_write {name : String} (mayNest isFirst : Bool) (rest : Bytes)
    (hlength : (Item.str name).write.length < Bytes.bound 4) :
    unpackKey mayNest isFirst ((Item.str name).write ++ rest) = .ok (name, rest) := by
  rw [Item.write, List.append_assoc, unpackKey, Head.read?_write (fits_str hlength)]
  exact unpackText_encode name rest

/-- Whether a member is the first one does not matter, since all keys are texts. -/
lemma MembersReadAs.unpackMembers_write {fields : List (String × Item)}
    {members : List (String × Json)} (h : MembersReadAs depth fields members)
    (mayNest isFirst : Bool) (hlength : (writeFields fields).length < Bytes.bound 4)
    (rest : Bytes) :
    unpackMembers ⟨mayNest, unpackValue depth⟩ isFirst fields.length (writeFields fields ++ rest)
      = .ok (members, rest) := by
  induction h generalizing isFirst with
  | nil => rfl
  | @cons field member fields members hfield _ ih =>
    obtain ⟨name, item⟩ := field
    obtain ⟨name', value⟩ := member
    obtain ⟨rfl, hitem : ReadAs depth item value⟩ := hfield
    simp only [writeFields, List.length_append] at hlength
    have hkey : unpackKey mayNest isFirst
        ((Item.str name).write ++ (item.write ++ (writeFields fields ++ rest)))
          = .ok (name, item.write ++ (writeFields fields ++ rest)) :=
      unpackKey_write mayNest isFirst _ (by omega)
    have hvalue := hitem (by omega) (writeFields fields ++ rest)
    have hothers := ih false (by omega)
    simp only [writeFields, List.append_assoc, List.length_cons, unpackMembers, hkey, hvalue,
      hothers, bind, Except.bind]
    rfl

lemma readAs_record {fields : List (String × Item)} {members : List (String × Json)}
    (h : MembersReadAs depth fields members) :
    ReadAs (depth + 1) (.record fields) (.object members) := by
  intro hlength rest
  rw [write_record, List.length_append] at hlength
  have hcount := h.length_le
  have hfits : (Head.map fields.length).Fits := by
    change fields.length < Bytes.bound 4
    omega
  rw [write_record, List.append_assoc, unpackValue_write hfits]
  simp only [interior?, unpackBody, h.unpackMembers_write _ true (by omega)]
  rfl

/-- A document is read as what its item is read as. -/
lemma ReadAs.unpack_write {item : Item} {value : Json} (h : ReadAs maxNesting item value)
    (hlength : item.write.length < Bytes.bound 4) : unpack item.write = .ok value := by
  have hread := h hlength []
  rw [List.append_nil] at hread
  rw [unpack, hread]
  rfl

end Json

end CodeGraph
