import Mathlib
import CodeGraph.Pack.Json
import CodeGraph.Proofs.Listing
import CodeGraph.Proofs.Pack.Item

/-!
# Values are read back

A value may be read from items of several forms, but it is written in one of them.  A reader
and a writer agree when whatever is read, from any item that can be written, is written as an
item that can be written too, nested no deeper, and is read back from there
(`Item.Rereads`).  This is shown for texts, numbers, lists, maps of texts and JSON values.
-/

namespace CodeGraph.Pack

lemma bind_eq_ok_iff {ε α β : Type} {x : Except ε α} {f : α → Except ε β} {b : β} :
    x >>= f = .ok b ↔ ∃ a, x = .ok a ∧ f a = .ok b := by
  cases x <;> simp [bind, Except.bind]

lemma map_eq_ok_iff {ε α β : Type} {x : Except ε α} {f : α → β} {b : β} :
    x.map f = .ok b ↔ ∃ a, x = .ok a ∧ f a = b := by
  cases x <;> simp [Except.map]

lemma mapError_eq_ok_iff {ε ε' α : Type} {x : Except ε α} {f : ε → ε'} {a : α} :
    x.mapError f = .ok a ↔ x = .ok a := by
  cases x <;> simp [Except.mapError]

/-- A list is read when each of its members is. -/
lemma mapM_eq_ok_iff {ε α β : Type} {f : α → Except ε β} {as : List α} {bs : List β} :
    as.mapM f = .ok bs ↔ List.Forall₂ (fun a b => f a = .ok b) as bs := by
  induction as generalizing bs with
  | nil => cases bs <;> simp [pure, Except.pure]
  | cons a as ih =>
    rw [List.mapM_cons]
    cases ha : f a with
    | error fault => cases bs <;> simp [bind, Except.bind, ha]
    | ok b =>
      cases has : as.mapM f with
      | error fault => cases bs <;> simp [bind, Except.bind, ← ih, has]
      | ok found => cases bs <;> simp [bind, Except.bind, pure, Except.pure, ← ih, has, ha]

lemma exists_of_mem_right {α β : Type} {R : α → β → Prop} {as : List α} {bs : List β}
    (h : List.Forall₂ R as bs) {b : β} (hb : b ∈ bs) : ∃ a ∈ as, R a b := by
  induction h with
  | nil => cases hb
  | @cons a b' as bs hab _ ih =>
    rcases List.mem_cons.1 hb with rfl | hb
    · exact ⟨a, List.mem_cons_self, hab⟩
    · obtain ⟨a', ha', hr⟩ := ih hb
      exact ⟨a', List.mem_cons_of_mem a ha', hr⟩

namespace Item

/-- What is read from an item that can be written is itself written as such an item, nested no
deeper, and read back from there. -/
def Rereads {α : Type} (read : Item → Except Fault α) (write : α → Item) : Prop :=
  ∀ (depth : Nat) (item : Item) (a : α), item.Fits depth → read item = .ok a →
    (write a).Fits depth ∧ read (write a) = .ok a

/-! ### Plain values -/

lemma fits_of_asText {depth : Nat} {item : Item} {s : String} (hfits : item.Fits depth)
    (h : item.asText = .ok s) : (Utf8.encode s).length < Bytes.bound 4 := by
  cases hfits with
  | str hlength =>
    obtain rfl := Except.ok.inj h
    exact hlength
  | @bin _ content hlength =>
    simp only [asText] at h
    split at h
    · next decoded hdecode =>
      obtain rfl := Except.ok.inj h
      rw [Utf8.encode_of_decode? hdecode]
      exact hlength
    · simp at h
  | _ => simp [asText] at h

lemma rereads_asText : Rereads asText .str :=
  fun _ _ _ hfits h => ⟨.str (fits_of_asText hfits h), rfl⟩

lemma rereads_asBool : Rereads asBool .bool :=
  fun _ _ _ _ _ => ⟨.bool, rfl⟩

lemma monotone_bound : Monotone Bytes.bound := by
  refine monotone_nat_of_le_succ fun width => ?_
  rw [Bytes.bound]
  omega

lemma rereads_asNat {width : Nat} (hwidth : width ≤ 8) : Rereads (asNat width) ofNat := by
  intro depth item n _ h
  have hn : n < Bytes.bound width := by
    cases item with
    | int form value =>
      simp only [asNat] at h
      split at h
      · next hrange =>
        obtain rfl := Except.ok.inj h
        omega
      · simp at h
    | _ => simp [asNat] at h
  have hbound : n < Bytes.bound 8 := lt_of_lt_of_le hn (monotone_bound hwidth)
  refine ⟨.int (IntForm.shortest_holds hbound), ?_⟩
  simp [ofNat, ofInt, asNat, hn]

/-! ### Lists and maps -/

lemma Rereads.asList {α : Type} {read : Item → Except Fault α} {write : α → Item}
    (h : Rereads read write) : Rereads (asList read) fun as => .arr (as.map write) := by
  intro depth item as hfits hread
  cases hfits with
  | @arr depth items hcount hitems =>
    have hall := mapM_eq_ok_iff.1 hread
    have hback : ∀ a ∈ as, (write a).Fits depth ∧ read (write a) = .ok a := by
      intro a ha
      obtain ⟨item, hitem, hitemread⟩ := exists_of_mem_right hall ha
      exact h depth item a (hitems item hitem) hitemread
    constructor
    · refine .arr ?_ ?_
      · rw [List.length_map, ← hall.length_eq]
        exact hcount
      · intro item hitem
        obtain ⟨a, ha, rfl⟩ := List.mem_map.1 hitem
        exact (hback a ha).1
    · refine mapM_eq_ok_iff.2 (List.forall₂_map_left_iff.2 (List.forall₂_same.2 ?_))
      exact fun a ha => (hback a ha).2
  | _ => simp [Item.asList] at hread

lemma asTextEntry_eq_ok_iff {entry : Item × Item} {pair : String × String} :
    asTextEntry entry = .ok pair ↔ entry.1.asText = .ok pair.1 ∧ entry.2.asText = .ok pair.2 := by
  obtain ⟨key, value⟩ := pair
  cases hkey : entry.1.asText <;> cases hvalue : entry.2.asText <;>
    simp [asTextEntry, bind, Except.bind, pure, Except.pure, hkey, hvalue]

lemma rereads_asTextMap : Rereads asTextMap ofTextMap := by
  intro depth item texts hfits hread
  cases hfits with
  | @map depth entries hcount hkeys hvalues =>
    obtain ⟨pairs, hpairs, rfl⟩ := map_eq_ok_iff.1 hread
    have hall := mapM_eq_ok_iff.1 hpairs
    have hsize : (Std.ExtTreeMap.ofList pairs).toList.length ≤ entries.length := by
      rw [Std.ExtTreeMap.length_toList, hall.length_eq]
      exact Std.ExtTreeMap.size_ofList_le
    have hfrom : ∀ pair ∈ (Std.ExtTreeMap.ofList pairs).toList, ∃ entry ∈ entries,
        entry.1.asText = .ok pair.1 ∧ entry.2.asText = .ok pair.2 := by
      intro pair hpair
      obtain ⟨entry, hentry, hread⟩ := exists_of_mem_right hall (mem_of_mem_map_ofList hpair)
      exact ⟨entry, hentry, asTextEntry_eq_ok_iff.1 hread⟩
    constructor
    · refine fits_record ?_ (List.forall_mem_map.2 fun pair hpair => ?_)
      · rw [List.length_map]
        exact lt_of_le_of_lt hsize hcount
      · obtain ⟨entry, hentry, hkey, hvalue⟩ := hfrom pair hpair
        exact ⟨fits_of_asText (hkeys entry hentry) hkey,
          .str (fits_of_asText (hvalues entry hentry) hvalue)⟩
    · have hpairs : List.mapM asTextEntry (((Std.ExtTreeMap.ofList pairs).toList.map
          fun pair => (pair.1, Item.str pair.2)).map fun field => (Item.str field.1, field.2))
            = .ok (Std.ExtTreeMap.ofList pairs).toList := by
        refine mapM_eq_ok_iff.2 ?_
        rw [List.map_map, List.forall₂_map_left_iff, List.forall₂_same]
        exact fun pair _ => rfl
      exact map_eq_ok_iff.2 ⟨_, hpairs, map_ofList_toList _⟩
  | _ => simp [asTextMap] at hread

end Item

end CodeGraph.Pack

namespace CodeGraph.Json

open Pack

/-! ### JSON values -/

variable {form : Int → IntForm}

lemma toItems_eq_map (values : List Json) : toItems form values = values.map (toItem form) := by
  induction values with
  | nil => rfl
  | cons value values ih => rw [toItems, ih, List.map_cons]

lemma toItem_obj (members : List (String × Json)) : toItem form (obj members)
    = Item.record (members.map fun member => (member.1, member.2.toItem form)) := by
  have hentries : toEntries form members
      = members.map fun member => (Item.str member.1, member.2.toItem form) := by
    induction members with
    | nil => rfl
    | cons member members ih => rw [toEntries, ih, List.map_cons]
  rw [toItem, hentries, Item.record, List.map_map]
  rfl

lemma ofItems_eq_ok_iff {items : List Item} {values : List Json} :
    ofItems items = .ok values
      ↔ List.Forall₂ (fun item value => ofItem item = .ok value) items values := by
  induction items generalizing values with
  | nil => cases values <;> simp [ofItems]
  | cons item items ih =>
    simp only [ofItems, bind_eq_ok_iff, List.forall₂_cons_left_iff, ← ih, pure, Except.pure,
      Except.ok.injEq]
    grind

lemma asText_of_keyOfItem {isFirst : Bool} {item : Item} {key : String}
    (h : keyOfItem isFirst item = .ok key) : item.asText = .ok key := by
  cases item with
  | bin content =>
    cases isFirst with
    | true => simp [keyOfItem] at h
    | false => exact h
  | _ => exact h

/-- What is read from entries, told for each of them. -/
lemma forall₂_of_ofEntries {isFirst : Bool} {entries : List (Item × Item)}
    {members : List (String × Json)} (h : ofEntries isFirst entries = .ok members) :
    List.Forall₂ (fun entry member =>
      entry.1.asText = .ok member.1 ∧ ofItem entry.2 = .ok member.2) entries members := by
  induction entries generalizing isFirst members with
  | nil =>
    obtain rfl := Except.ok.inj h
    exact .nil
  | cons entry entries ih =>
    simp only [ofEntries, bind_eq_ok_iff, pure, Except.pure, Except.ok.injEq] at h
    obtain ⟨key, hkey, value, hvalue, others, hothers, rfl⟩ := h
    exact .cons ⟨asText_of_keyOfItem hkey, hvalue⟩ (ih hothers)

/-- Entries under texts are read as they are written, the first one too. -/
lemma ofEntries_toEntries {isFirst : Bool} {members : List (String × Json)}
    (h : ∀ member ∈ members, ofItem (member.2.toItem form) = .ok member.2) :
    ofEntries isFirst (toEntries form members) = .ok members := by
  induction members generalizing isFirst with
  | nil => rfl
  | cons member members ih =>
    have hvalue := h member List.mem_cons_self
    have hothers : ofEntries false (toEntries form members) = .ok members :=
      ih fun other hother => h other (List.mem_cons_of_mem _ hother)
    have hkey : keyOfItem isFirst (.str member.1) = .ok member.1 := rfl
    simp only [toEntries, ofEntries, hkey, hvalue, hothers, bind, Except.bind, pure, Except.pure]

lemma sortMembers_sortMembers (members : List (String × Json)) :
    sortMembers (sortMembers members) = sortMembers members := by
  rw [sortMembers, sortMembers, map_ofList_toList]

lemma length_sortMembers_le (members : List (String × Json)) :
    (sortMembers members).length ≤ members.length := by
  rw [sortMembers, Std.ExtTreeMap.length_toList]
  exact Std.ExtTreeMap.size_ofList_le

lemma rereads_ofFloat {depth : Nat} (x : Binary64) :
    ((ofFloat x).toItem form).Fits depth ∧ ofItem ((ofFloat x).toItem form) = .ok (ofFloat x) := by
  by_cases hfinite : x.isFinite
  · simp only [ofFloat, hfinite, if_true, toItem, ofItem]
    exact ⟨.float64, trivial⟩
  · simp only [ofFloat, hfinite]
    exact ⟨.nil, rfl⟩

/-- JSON values are written as they are, whatever forms their numbers and keys had. -/
theorem rereads_ofItem : Item.Rereads ofItem (toItem .shortest) := by
  intro depth item value hfits h
  induction hfits generalizing value with
  | nil =>
    obtain rfl := Except.ok.inj h
    exact ⟨.nil, rfl⟩
  | bool =>
    obtain rfl := Except.ok.inj h
    exact ⟨.bool, rfl⟩
  | int hholds =>
    obtain rfl := Except.ok.inj h
    exact ⟨.int hholds.shortest, rfl⟩
  | @float32 depth bits =>
    obtain rfl := Except.ok.inj h
    exact rereads_ofFloat _
  | @float64 depth x =>
    obtain rfl := Except.ok.inj h
    exact rereads_ofFloat x
  | str hlength =>
    obtain rfl := Except.ok.inj h
    exact ⟨.str hlength, rfl⟩
  | bin => simp [ofItem] at h
  | ext => simp [ofItem] at h
  | @arr depth items hcount _ ih =>
    rw [ofItem] at h
    obtain ⟨values, hvalues, rfl⟩ := map_eq_ok_iff.1 h
    have hall := ofItems_eq_ok_iff.1 hvalues
    have hback : ∀ value ∈ values, (value.toItem .shortest).Fits depth ∧
        ofItem (value.toItem .shortest) = .ok value := by
      intro value hvalue
      obtain ⟨item, hitem, hread⟩ := exists_of_mem_right hall hvalue
      exact ih item hitem value hread
    rw [toItem, toItems_eq_map]
    constructor
    · refine .arr ?_ (List.forall_mem_map.2 fun value hvalue => (hback value hvalue).1)
      rw [List.length_map, ← hall.length_eq]
      exact hcount
    · rw [ofItem, map_eq_ok_iff]
      refine ⟨values, ofItems_eq_ok_iff.2 ?_, rfl⟩
      rw [List.forall₂_map_left_iff, List.forall₂_same]
      exact fun value hvalue => (hback value hvalue).2
  | @map depth entries hcount hkeys _ _ ih =>
    rw [ofItem] at h
    obtain ⟨members, hmembers, rfl⟩ := map_eq_ok_iff.1 h
    have hall := forall₂_of_ofEntries hmembers
    have hfrom : ∀ member ∈ sortMembers members, ∃ entry ∈ entries,
        entry.1.asText = .ok member.1 ∧ ofItem entry.2 = .ok member.2 :=
      fun member hmember => exists_of_mem_right hall (mem_of_mem_map_ofList hmember)
    have hback : ∀ member ∈ sortMembers members, (member.2.toItem .shortest).Fits depth ∧
        ofItem (member.2.toItem .shortest) = .ok member.2 := by
      intro member hmember
      obtain ⟨entry, hentry, -, hread⟩ := hfrom member hmember
      exact ih entry hentry member.2 hread
    constructor
    · rw [object, toItem_obj]
      refine Item.fits_record ?_ (List.forall_mem_map.2 fun member hmember => ?_)
      · have hsize := length_sortMembers_le members
        rw [← hall.length_eq] at hsize
        rw [List.length_map]
        exact lt_of_le_of_lt hsize hcount
      · obtain ⟨entry, hentry, hkey, -⟩ := hfrom member hmember
        exact ⟨Item.fits_of_asText (hkeys entry hentry) hkey, (hback member hmember).1⟩
    · have hread : ofEntries true (toEntries .shortest (sortMembers members))
          = .ok (sortMembers members) :=
        ofEntries_toEntries fun member hmember => (hback member hmember).2
      rw [object, toItem, ofItem, hread]
      exact congrArg (fun members => Except.ok (obj members)) (sortMembers_sortMembers members)

end CodeGraph.Json
