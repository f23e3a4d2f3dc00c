import Mathlib
import CodeGraph.Pack.Fields
import CodeGraph.Proofs.Pack.Value

/-!
# Records are read back

A record may be read from a map, whose keys name its fields by any of their names or by
position, or from an array.  What it is made of are the items found for its fields.
`Fields.Rereads` tells how values made in this way are written, so that they are made again of
what was written; it is shown for single fields (`rereads_required`, `rereads_optional`) and kept
by the operators that put fields together (`Rereads.map`, `Rereads.seq`).  For whole records the
fields need names that tell them apart (`WellNamed`); then what is read from a map or an array is
read again from the record that is written (`Rereads.ofItem`).
-/

namespace CodeGraph.Pack

/-- The entries of the map that a record is. -/
def entriesOf (fields : List (String × Item)) : List (Item × Item) :=
  fields.map fun field => (.str field.1, field.2)

lemma record_eq (fields : List (String × Item)) : Item.record fields = .map (entriesOf fields) :=
  rfl

lemma entriesOf_append (fields fields' : List (String × Item)) :
    entriesOf (fields ++ fields') = entriesOf fields ++ entriesOf fields' :=
  List.map_append

/-- What is found under a name is one of the fields. -/
lemma mem_of_lookup {β : Type} {fields : List (String × β)} {name : String} {b : β}
    (h : fields.lookup name = some b) : (name, b) ∈ fields := by
  obtain ⟨before, after, rfl, -⟩ := List.lookup_eq_some_iff.1 h
  simp

lemma lookup_of_mem {β : Type} {fields : List (String × β)} (hnames : (fields.map Prod.fst).Nodup)
    {field : String × β} (h : field ∈ fields) : fields.lookup field.1 = some field.2 := by
  induction fields with
  | nil => cases h
  | cons other fields ih =>
    rw [List.map_cons, List.nodup_cons] at hnames
    rcases List.mem_cons.1 h with rfl | hfield
    · exact List.lookup_cons_self
    · have hne : (field.1 == other.1) = false := by
        rw [beq_eq_false_iff_ne]
        rintro heq
        exact hnames.1 (heq ▸ List.mem_map_of_mem hfield)
      obtain ⟨name, item⟩ := other
      rw [List.lookup_cons, hne]
      exact ih hnames.2 hfield

lemma lookup_eq_none_of_not_mem {fields : List (String × Item)} {name : String}
    (h : name ∉ fields.map Prod.fst) : fields.lookup name = none := by
  rw [List.lookup_eq_none_iff]
  intro field hfield
  rw [bne_iff_ne]
  rintro rfl
  exact h (List.mem_map_of_mem hfield)

/-- Fields of different names may be looked up in any order. -/
lemma lookup_reverse {fields : List (String × Item)} (hnames : (fields.map Prod.fst).Nodup)
    (name : String) : fields.reverse.lookup name = fields.lookup name := by
  by_cases hname : name ∈ fields.map Prod.fst
  · obtain ⟨field, hfield, rfl⟩ := List.mem_map.1 hname
    have hreverse : (fields.reverse.map Prod.fst).Nodup := by
      rw [List.map_reverse, List.nodup_reverse]
      exact hnames
    rw [lookup_of_mem hnames hfield, lookup_of_mem hreverse (List.mem_reverse.2 hfield)]
  · rw [lookup_eq_none_of_not_mem hname, lookup_eq_none_of_not_mem]
    rwa [List.map_reverse, List.mem_reverse]

/-- Whether the names of fields can be written, and each of them stands for its own field. -/
structure WellNamed (slots : List Slot) : Prop where
  nodup : (slots.map Slot.name).Nodup
  named : ∀ name ∈ slots.map Slot.name,
    (Fields.slotNamed? slots name).map Slot.name = some name
  short : ∀ name ∈ slots.map Slot.name, (Utf8.encode name).length < Bytes.bound 4
  few : slots.length < Bytes.bound 4

instance (slots : List Slot) : Decidable (WellNamed slots) :=
  decidable_of_iff
    ((slots.map Slot.name).Nodup ∧
      (∀ name ∈ slots.map Slot.name,
        (Fields.slotNamed? slots name).map Slot.name = some name) ∧
      (∀ name ∈ slots.map Slot.name, (Utf8.encode name).length < Bytes.bound 4) ∧
      slots.length < Bytes.bound 4)
    ⟨fun h => ⟨h.1, h.2.1, h.2.2.1, h.2.2.2⟩, fun h => ⟨h.nodup, h.named, h.short, h.few⟩⟩

namespace Fields

variable {α β : Type}

lemma build_map_eq_ok_iff {f : Fields α} {g : α → β} {found : String → Option Item} {b : β} :
    (g <$> f).build found = .ok b ↔ ∃ a, f.build found = .ok a ∧ g a = b :=
  map_eq_ok_iff

lemma build_seq_eq_ok_iff {f : Fields (α → β)} {x : Fields α} {found : String → Option Item}
    {b : β} : (f <*> x).build found = .ok b
      ↔ ∃ g, f.build found = .ok g ∧ ∃ a, x.build found = .ok a ∧ g a = b := by
  change (do let g ← f.build found; let a ← x.build found; pure (g a)) = Except.ok b ↔ _
  simp only [bind_eq_ok_iff, pure, Except.pure, Except.ok.injEq]

/-! ### Made again of what was written -/

/-- Whether a value is read from fields that are written in this way. -/
structure Reads (f : Fields α) (given : List (String × Item)) (a : α) : Prop where
  names : (given.map Prod.fst).Sublist (f.slots.map Slot.name)
  check : ∀ slot ∈ f.slots, ∀ item, given.lookup slot.name = some item → slot.check item = .ok ()
  build : ∀ found : String → Option Item,
    (∀ slot ∈ f.slots, found slot.name = given.lookup slot.name) → f.build found = .ok a

/-- What is made of items that can be written is written as such items, and is made again of
them. -/
def Rereads (f : Fields α) (depth : Nat) (Written : α → List (String × Item) → Prop) : Prop :=
  (f.slots.map Slot.name).Nodup →
    ∀ (found : String → Option Item) (a : α),
      (∀ name item, found name = some item → item.Fits depth) → f.build found = .ok a →
        ∃ given, Written a given ∧ f.Reads given a ∧ ∀ field ∈ given, field.2.Fits depth

lemma Reads.lookup_eq_none {f : Fields α} {given : List (String × Item)} {a : α}
    (h : f.Reads given a) {name : String} (hname : name ∉ f.slots.map Slot.name) :
    given.lookup name = none :=
  lookup_eq_none_of_not_mem fun hmem => hname (h.names.subset hmem)

/-- Fields that are put together are looked up each among its own. -/
lemma Reads.seq {f : Fields (α → β)} {x : Fields α} {given given' : List (String × Item)}
    {g : α → β} {a : α} (hnames : ((f <*> x).slots.map Slot.name).Nodup) (hf : f.Reads given g)
    (hx : x.Reads given' a) : (f <*> x).Reads (given ++ given') (g a) := by
  have hslots : (f <*> x).slots = f.slots ++ x.slots := rfl
  rw [hslots, List.map_append] at hnames
  have hdisjoint := List.disjoint_of_nodup_append hnames
  have hleft : ∀ slot ∈ f.slots, (given ++ given').lookup slot.name = given.lookup slot.name := by
    intro slot hslot
    have hname : slot.name ∉ x.slots.map Slot.name := hdisjoint (List.mem_map_of_mem hslot)
    rw [List.lookup_append, hx.lookup_eq_none hname, Option.or_none]
  have hright : ∀ slot ∈ x.slots, (given ++ given').lookup slot.name = given'.lookup slot.name := by
    intro slot hslot
    have hname : slot.name ∉ f.slots.map Slot.name :=
      fun hmem => hdisjoint hmem (List.mem_map_of_mem hslot)
    rw [List.lookup_append, hf.lookup_eq_none hname, Option.none_or]
  constructor
  · rw [hslots, List.map_append, List.map_append]
    exact hf.names.append hx.names
  · intro slot hslot item hitem
    rcases List.mem_append.1 hslot with hslot | hslot
    · rw [hleft slot hslot] at hitem
      exact hf.check slot hslot item hitem
    · rw [hright slot hslot] at hitem
      exact hx.check slot hslot item hitem
  · intro found hfound
    have hg := hf.build found fun slot hslot =>
      (hfound slot (List.mem_append_left _ hslot)).trans (hleft slot hslot)
    have ha := hx.build found fun slot hslot =>
      (hfound slot (List.mem_append_right _ hslot)).trans (hright slot hslot)
    exact build_seq_eq_ok_iff.2 ⟨g, hg, a, ha, rfl⟩

variable {depth : Nat} {Written Written' : α → List (String × Item) → Prop}

lemma Rereads.imp {f : Fields α} (h : f.Rereads depth Written)
    (himp : ∀ a given, Written a given → Written' a given) : f.Rereads depth Written' := by
  intro hnames found a hfits hbuild
  obtain ⟨given, hwritten, hreads, hgiven⟩ := h hnames found a hfits hbuild
  exact ⟨given, himp a given hwritten, hreads, hgiven⟩

lemma Rereads.map {f : Fields α} (h : f.Rereads depth Written) (g : α → β) :
    (g <$> f).Rereads depth fun b given => ∃ a, b = g a ∧ Written a given := by
  intro hnames found b hfits hbuild
  obtain ⟨a, ha, rfl⟩ := build_map_eq_ok_iff.1 hbuild
  obtain ⟨given, hwritten, hreads, hgiven⟩ := h hnames found a hfits ha
  refine ⟨given, ⟨a, rfl, hwritten⟩, ⟨hreads.names, hreads.check, ?_⟩, hgiven⟩
  intro found' hfound'
  exact build_map_eq_ok_iff.2 ⟨a, hreads.build found' hfound', rfl⟩

lemma Rereads.seq {f : Fields (α → β)} {x : Fields α}
    {WrittenF : (α → β) → List (String × Item) → Prop} (hf : f.Rereads depth WrittenF)
    (hx : x.Rereads depth Written) :
    (f <*> x).Rereads depth fun b all => ∃ g a given given',
      b = g a ∧ all = given ++ given' ∧ WrittenF g given ∧ Written a given' := by
  intro hnames found b hfits hbuild
  have hparts : ((f.slots.map Slot.name) ++ (x.slots.map Slot.name)).Nodup := by
    rw [← List.map_append]
    exact hnames
  obtain ⟨g, hg, a, ha, rfl⟩ := build_seq_eq_ok_iff.1 hbuild
  obtain ⟨given, hgiven, hreadsF, hfitsF⟩ := hf hparts.of_append_left found g hfits hg
  obtain ⟨given', hgiven', hreads, hfits'⟩ := hx hparts.of_append_right found a hfits ha
  refine ⟨given ++ given', ⟨g, a, given, given', rfl, rfl, hgiven, hgiven'⟩,
    hreadsF.seq hnames hreads, ?_⟩
  intro field hfield
  rcases List.mem_append.1 hfield with hfield | hfield
  · exact hfitsF field hfield
  · exact hfits' field hfield

/-! ### Single fields -/

section Single

variable {name : String} {read : Item → Except Fault α} {write : α → Item}
  {aliases : List String} {absent : α}

lemma reads_item {f : Fields α} {check : Item → Except Fault Unit}
    (hslots : f.slots = [⟨name, aliases, check⟩]) {item : Item} {a : α}
    (hcheck : check item = .ok ())
    (hbuild : ∀ found, found name = some item → f.build found = .ok a) :
    f.Reads [(name, item)] a where
  names := by simp [hslots]
  check := by simp [hslots, hcheck]
  build found hfound := by
    apply hbuild
    rw [hfound ⟨name, aliases, check⟩ (by simp [hslots])]
    exact List.lookup_cons_self

lemma reads_nothing {f : Fields α} {check : Item → Except Fault Unit}
    (hslots : f.slots = [⟨name, aliases, check⟩]) {a : α}
    (hbuild : ∀ found, found name = none → f.build found = .ok a) : f.Reads [] a where
  names := List.nil_sublist _
  check := by simp
  build found hfound := by
    apply hbuild
    rw [hfound ⟨name, aliases, check⟩ (by simp [hslots])]
    exact List.lookup_nil

lemma rereads_required (h : Item.Rereads read write) :
    (required name read aliases).Rereads depth fun a given => given = [(name, write a)] := by
  intro _ found a hfits hbuild
  simp only [required] at hbuild
  split at hbuild
  · next item hitem =>
    obtain ⟨hwrite, hread⟩ := h depth item a (hfits name item hitem) hbuild
    refine ⟨_, rfl, reads_item rfl ?_ ?_, by simpa using hwrite⟩
    · exact map_eq_ok_iff.2 ⟨a, hread, rfl⟩
    · intro found' hfound'
      simp only [required, hfound', hread]
  · simp at hbuild

/-- A field that may be absent is written, or left out where its value is that of absence. -/
lemma rereads_optional {given : α → List (String × Item)}
    (h : ∀ a, (a = absent ∨ ∃ item : Item, item.Fits depth ∧ read item = .ok a) →
      (given a = [] ∧ a = absent) ∨
        ∃ item : Item, given a = [(name, item)] ∧ item.Fits depth ∧ read item = .ok a) :
    (optional name read absent aliases).Rereads depth fun a fields => fields = given a := by
  intro _ found a hfits hbuild
  have hsource : a = absent ∨ ∃ item : Item, item.Fits depth ∧ read item = .ok a := by
    simp only [optional] at hbuild
    split at hbuild
    · next item hitem => exact .inr ⟨item, hfits name item hitem, hbuild⟩
    · exact .inl (Except.ok.inj hbuild).symm
  rcases h a hsource with ⟨hgiven, rfl⟩ | ⟨item, hgiven, hitem, hread⟩
  · refine ⟨_, rfl, ?_, by simp [hgiven]⟩
    rw [hgiven]
    refine reads_nothing rfl fun found' hfound' => ?_
    simp only [optional, hfound']
  · refine ⟨_, rfl, ?_, by simpa [hgiven] using hitem⟩
    rw [hgiven]
    refine reads_item rfl (map_eq_ok_iff.2 ⟨a, hread, rfl⟩) fun found' hfound' => ?_
    simp only [optional, hfound', hread]

/-- A field that is written even with the value of absence. -/
lemma rereads_always (h : Item.Rereads read write) (hfits : (write absent).Fits depth)
    (hread : read (write absent) = .ok absent) :
    (optional name read absent aliases).Rereads depth
      fun a given => given = [(name, write a)] := by
  apply rereads_optional
  rintro a (rfl | ⟨item, hitem, ha⟩)
  · exact .inr ⟨_, rfl, hfits, hread⟩
  · exact .inr ⟨_, rfl, h depth item a hitem ha⟩

/-- A field that is written only when it has a value, which is never written as nothing. -/
lemma rereads_ifSome (h : Item.Rereads read write) (hnil : ∀ a, write a ≠ .nil) :
    (optional name (Item.asOption read) none aliases).Rereads depth
      fun a given => given = fieldIfSome name write a := by
  apply rereads_optional
  rintro (_ | a) hsource
  · exact .inl ⟨rfl, rfl⟩
  · right
    obtain ⟨item, hitem, ha⟩ : ∃ item : Item, item.Fits depth ∧ read item = .ok a := by
      rcases hsource with hnone | ⟨item, hitem, ha⟩
      · cases hnone
      · refine ⟨item, hitem, ?_⟩
        unfold Item.asOption at ha
        split at ha
        · simp at ha
        · obtain ⟨a', ha', heq⟩ := map_eq_ok_iff.1 ha
          rw [ha', Option.some.inj heq]
    obtain ⟨hwrite, hread⟩ := h depth item a hitem ha
    refine ⟨write a, rfl, hwrite, ?_⟩
    unfold Item.asOption
    split
    · next hwritten => exact absurd hwritten (hnil a)
    · exact map_eq_ok_iff.2 ⟨a, hread, rfl⟩

/-- A truth value that is written only when it holds. -/
lemma rereads_ifTrue :
    (optional name Item.asBool false aliases).Rereads depth
      fun value given => given = if value then [(name, .bool true)] else [] := by
  apply rereads_optional
  rintro (_ | _) _
  · exact .inl ⟨rfl, rfl⟩
  · exact .inr ⟨_, rfl, .bool, rfl⟩

end Single

/-! ### Fields of a constructor -/

section Constructor

variable {γ δ ε : Type} {f : Fields α} {g : Fields β} {h : Fields γ} {k : Fields δ}
  {writeF : α → List (String × Item)} {writeG : β → List (String × Item)}
  {writeH : γ → List (String × Item)} {writeK : δ → List (String × Item)}
  {Made : ε → List (String × Item) → Prop}

lemma rereads_one {make : α → ε} (hf : f.Rereads depth fun a given => given = writeF a)
    (hmake : ∀ a, Made (make a) (writeF a)) : (make <$> f).Rereads depth Made := by
  apply (hf.map make).imp
  rintro _ _ ⟨a, rfl, rfl⟩
  exact hmake a

lemma rereads_two {make : α → β → ε} (hf : f.Rereads depth fun a given => given = writeF a)
    (hg : g.Rereads depth fun b given => given = writeG b)
    (hmake : ∀ a b, Made (make a b) (writeF a ++ writeG b)) :
    (make <$> f <*> g).Rereads depth Made := by
  apply ((hf.map make).seq hg).imp
  rintro _ _ ⟨_, b, _, _, rfl, rfl, ⟨a, rfl, rfl⟩, rfl⟩
  exact hmake a b

lemma rereads_three {make : α → β → γ → ε}
    (hf : f.Rereads depth fun a given => given = writeF a)
    (hg : g.Rereads depth fun b given => given = writeG b)
    (hh : h.Rereads depth fun c given => given = writeH c)
    (hmake : ∀ a b c, Made (make a b c) (writeF a ++ writeG b ++ writeH c)) :
    (make <$> f <*> g <*> h).Rereads depth Made := by
  apply (((hf.map make).seq hg).seq hh).imp
  rintro _ _ ⟨_, c, _, _, rfl, rfl, ⟨_, b, _, _, rfl, rfl, ⟨a, rfl, rfl⟩, rfl⟩, rfl⟩
  exact hmake a b c

lemma rereads_four {make : α → β → γ → δ → ε}
    (hf : f.Rereads depth fun a given => given = writeF a)
    (hg : g.Rereads depth fun b given => given = writeG b)
    (hh : h.Rereads depth fun c given => given = writeH c)
    (hk : k.Rereads depth fun d given => given = writeK d)
    (hmake : ∀ a b c d, Made (make a b c d) (writeF a ++ writeG b ++ writeH c ++ writeK d)) :
    (make <$> f <*> g <*> h <*> k).Rereads depth Made := by
  apply ((((hf.map make).seq hg).seq hh).seq hk).imp
  rintro _ _ ⟨_, d, _, _, rfl, rfl,
    ⟨_, c, _, _, rfl, rfl, ⟨_, b, _, _, rfl, rfl, ⟨a, rfl, rfl⟩, rfl⟩, rfl⟩, rfl⟩
  exact hmake a b c d

end Constructor

/-! ### Whole records -/

section Entries

variable {slotOf : Item → Except Fault (Option Slot)} {found found' : Found}
  {entries seen : List (Item × Item)}

/-- What was found in entries: each item stands in one of them, and so do those that belong to
no field. -/
structure Covers (slotOf : Item → Except Fault (Option Slot)) (entries : List (Item × Item))
    (found : Found) : Prop where
  fields : ∀ field ∈ found.fields, ∃ entry ∈ entries, entry.2 = field.2
  others : ∀ entry ∈ found.others, entry ∈ entries ∧ slotOf entry.1 = .ok none
  length : found.fields.length + found.others.length = entries.length

lemma Covers.add (h : Covers slotOf seen found) {entry : Item × Item} {slot : Option Slot}
    (hslot : slotOf entry.1 = .ok slot) (hadd : found.add entry slot = .ok found') :
    Covers slotOf (seen ++ [entry]) found' := by
  have hfields : ∀ field ∈ found.fields, ∃ entry' ∈ seen ++ [entry], entry'.2 = field.2 := by
    intro field hfield
    obtain ⟨entry', hentry', heq⟩ := h.fields field hfield
    exact ⟨entry', List.mem_append_left _ hentry', heq⟩
  have hothers : ∀ entry' ∈ found.others,
      entry' ∈ seen ++ [entry] ∧ slotOf entry'.1 = .ok none := by
    intro entry' hentry'
    obtain ⟨hmem, hnone⟩ := h.others entry' hentry'
    exact ⟨List.mem_append_left _ hmem, hnone⟩
  have hlength := h.length
  cases slot with
  | none =>
    obtain rfl := Except.ok.inj hadd
    constructor
    · exact hfields
    · intro entry' hentry'
      rcases List.mem_append.1 hentry' with hentry' | hentry'
      · exact hothers entry' hentry'
      · obtain rfl := List.mem_singleton.1 hentry'
        exact ⟨by simp, hslot⟩
    · change found.fields.length + (found.others ++ [entry]).length = _
      rw [List.length_append, List.length_append, List.length_singleton]
      omega
  | some slot =>
    simp only [Found.add] at hadd
    split at hadd
    · simp at hadd
    · obtain ⟨_, _, rfl⟩ := map_eq_ok_iff.1 hadd
      constructor
      · rintro field (_ | ⟨_, hfield⟩)
        · exact ⟨entry, by simp, rfl⟩
        · exact hfields field hfield
      · exact hothers
      · change ((slot.name, entry.2) :: found.fields).length + found.others.length = _
        rw [List.length_append, List.length_cons, List.length_singleton]
        omega

lemma Covers.collect (h : Covers slotOf seen found)
    (hcollect : collect slotOf found entries = .ok found') :
    Covers slotOf (seen ++ entries) found' := by
  induction entries generalizing seen found with
  | nil =>
    obtain rfl := Except.ok.inj hcollect
    rwa [List.append_nil]
  | cons entry entries ih =>
    obtain ⟨slot, hslot, hrest⟩ := bind_eq_ok_iff.1 hcollect
    obtain ⟨next, hadd, hothers⟩ := bind_eq_ok_iff.1 hrest
    have hall := ih (h.add hslot hadd) hothers
    rwa [List.append_assoc] at hall

lemma covers_of_collect (h : collect slotOf ⟨[], []⟩ entries = .ok found) :
    Covers slotOf entries found := by
  have hempty : Covers slotOf [] ⟨[], []⟩ := by
    constructor <;> simp
  exact hempty.collect h

/-- Fields that are written are all found. -/
lemma collect_given {given : List (String × Item)}
    (hslots : ∀ field ∈ given, ∃ slot, slotOf (.str field.1) = .ok (some slot) ∧
      slot.name = field.1 ∧ slot.check field.2 = .ok ())
    (hnames : (given.map Prod.fst).Nodup)
    (hfresh : ∀ field ∈ given, found.fields.lookup field.1 = none) :
    collect slotOf found (entriesOf given ++ entries)
      = collect slotOf ⟨given.reverse ++ found.fields, found.others⟩ entries := by
  induction given generalizing found with
  | nil => rfl
  | cons field given ih =>
    obtain ⟨slot, hslot, hname, hcheck⟩ := hslots field List.mem_cons_self
    have hnone := hfresh field List.mem_cons_self
    rw [List.map_cons, List.nodup_cons] at hnames
    have hadd : found.add (.str field.1, field.2) (some slot)
        = .ok ⟨field :: found.fields, found.others⟩ := by
      simp only [Found.add, hname, hnone, hcheck]
      rfl
    have hlater : ∀ other ∈ given,
        (field :: found.fields).lookup other.1 = none := by
      intro other hother
      have hne : (other.1 == field.1) = false := by
        rw [beq_eq_false_iff_ne]
        intro heq
        exact hnames.1 (heq ▸ List.mem_map_of_mem hother)
      obtain ⟨name, item⟩ := field
      rw [List.lookup_cons, hne]
      exact hfresh other (List.mem_cons_of_mem _ hother)
    have hothers : collect slotOf ⟨field :: found.fields, found.others⟩
        (entriesOf given ++ entries)
          = collect slotOf ⟨given.reverse ++ field :: found.fields, found.others⟩ entries :=
      ih (fun other hother => hslots other (List.mem_cons_of_mem _ hother)) hnames.2 hlater
    have hentries : entriesOf (field :: given) ++ entries
        = (.str field.1, field.2) :: (entriesOf given ++ entries) := rfl
    rw [hentries, Fields.collect, hslot]
    simp only [bind, Except.bind, hadd, hothers, List.reverse_cons, List.append_assoc,
      List.singleton_append]

/-- Entries that belong to no field are all kept. -/
lemma collect_others (h : ∀ entry ∈ entries, slotOf entry.1 = .ok none) :
    collect slotOf found entries = .ok ⟨found.fields, found.others ++ entries⟩ := by
  induction entries generalizing found with
  | nil => rw [List.append_nil]; rfl
  | cons entry entries ih =>
    have hadd : found.add entry none = .ok ⟨found.fields, found.others ++ [entry]⟩ := rfl
    rw [Fields.collect, h entry List.mem_cons_self]
    simp only [bind, Except.bind, hadd]
    rw [ih fun other hother => h other (List.mem_cons_of_mem _ hother), List.append_assoc]
    rfl

end Entries

section Records

variable {f : Fields α} {write : α → List (String × Item)}

/-- The slots of fields that are written are found by their names. -/
lemma Reads.slots_named {given : List (String × Item)} {a : α} (h : f.Reads given a)
    (hslots : WellNamed f.slots) : ∀ field ∈ given, ∃ slot,
      slotNamed? f.slots field.1 = some slot ∧ slot.name = field.1 ∧
        slot.check field.2 = .ok () := by
  intro field hfield
  have hnodup := h.names.nodup hslots.nodup
  have hname := hslots.named field.1 (h.names.subset (List.mem_map_of_mem hfield))
  obtain ⟨slot, hslot, heq⟩ := Option.map_eq_some_iff.1 hname
  refine ⟨slot, hslot, heq, h.check slot (List.mem_of_find?_eq_some hslot) field.2 ?_⟩
  rw [heq]
  exact lookup_of_mem hnodup hfield

/-- Fields that are written have names that can be written. -/
lemma Reads.fieldFits {given : List (String × Item)} {a : α} (h : f.Reads given a)
    (hslots : WellNamed f.slots) (hgiven : ∀ field ∈ given, field.2.Fits depth) :
    ∀ field ∈ given, Item.FieldFits depth field :=
  fun field hfield =>
    ⟨hslots.short field.1 (h.names.subset (List.mem_map_of_mem hfield)), hgiven field hfield⟩

/-- Fields that are written are read as entries of a map. -/
lemma Reads.ofEntries {given : List (String × Item)} {a : α} (h : f.Reads given a)
    (hslots : WellNamed f.slots) : f.ofEntries (entriesOf given) = .ok a := by
  have hnodup := h.names.nodup hslots.nodup
  have hfound : ∀ field ∈ given, ∃ slot, slotOf f.slots (.str field.1) = .ok (some slot) ∧
      slot.name = field.1 ∧ slot.check field.2 = .ok () := by
    intro field hfield
    obtain ⟨slot, hslot, hname, hcheck⟩ := h.slots_named hslots field hfield
    exact ⟨slot, congrArg Except.ok hslot, hname, hcheck⟩
  have hcollect : collect (slotOf f.slots) ⟨[], []⟩ (entriesOf given ++ [])
      = .ok ⟨given.reverse ++ [], []⟩ :=
    collect_given hfound hnodup fun _ _ => rfl
  rw [List.append_nil, List.append_nil] at hcollect
  refine bind_eq_ok_iff.2 ⟨_, hcollect, h.build _ fun slot _ => ?_⟩
  exact lookup_reverse hnodup slot.name

/-- What is read from the entries of a map is read again from the entries that are written. -/
lemma Rereads.ofEntries {Written : α → List (String × Item) → Prop}
    (h : f.Rereads depth Written) (hslots : WellNamed f.slots) {entries : List (Item × Item)}
    {a : α} (hfits : ∀ entry ∈ entries, entry.2.Fits depth) (hread : f.ofEntries entries = .ok a) :
    ∃ given, Written a given ∧ f.Reads given a ∧ ∀ field ∈ given, field.2.Fits depth := by
  obtain ⟨found, hcollect, hbuild⟩ := bind_eq_ok_iff.1 hread
  refine h hslots.nodup _ a (fun name item hitem => ?_) hbuild
  obtain ⟨entry, hentry, heq⟩ :=
    (covers_of_collect hcollect).fields (name, item) (mem_of_lookup hitem)
  obtain rfl : entry.2 = item := heq
  exact hfits entry hentry

lemma Rereads.ofElements {Written : α → List (String × Item) → Prop}
    (h : f.Rereads depth Written) (hslots : WellNamed f.slots) {items : List Item} {a : α}
    (hfits : ∀ item ∈ items, item.Fits depth) (hread : f.ofElements items = .ok a) :
    ∃ given, Written a given ∧ f.Reads given a ∧ ∀ field ∈ given, field.2.Fits depth := by
  simp only [Fields.ofElements, bind_eq_ok_iff] at hread
  obtain ⟨_, _, a', hbuild, hend⟩ := hread
  split at hend
  · simp at hend
  obtain rfl := Except.ok.inj hend
  refine h hslots.nodup _ _ (fun name item hitem => ?_) (mapError_eq_ok_iff.1 hbuild)
  obtain ⟨⟨slot, item'⟩, hpair, heq⟩ := List.mem_map.1 (mem_of_lookup hitem)
  obtain ⟨-, rfl⟩ := Prod.mk.inj heq
  exact hfits _ (List.of_mem_zip hpair).2

/-- A record is written as a map, whatever it was read from. -/
theorem Rereads.ofItem (hslots : WellNamed f.slots)
    (h : ∀ depth, f.Rereads depth fun a given => given = write a) :
    Item.Rereads f.ofItem fun a => .record (write a) := by
  intro depth item a hfits hread
  obtain ⟨below, rfl, hreads, hgiven⟩ : ∃ below, depth = below + 1 ∧
      f.Reads (write a) a ∧ ∀ field ∈ write a, field.2.Fits below := by
    cases hfits with
    | @map below entries _ _ hvalues =>
      obtain ⟨_, rfl, hreads, hgiven⟩ := (h below).ofEntries hslots hvalues hread
      exact ⟨below, rfl, hreads, hgiven⟩
    | @arr below items _ hitems =>
      obtain ⟨_, rfl, hreads, hgiven⟩ := (h below).ofElements hslots hitems hread
      exact ⟨below, rfl, hreads, hgiven⟩
    | _ => simp [Fields.ofItem] at hread
  refine ⟨Item.fits_record ?_ fun field hfield => ?_, hreads.ofEntries hslots⟩
  · have hcount := hreads.names.length_le
    have hfew := hslots.few
    rw [List.length_map, List.length_map] at hcount
    omega
  · exact hreads.fieldFits hslots hgiven field hfield

end Records

end Fields

end CodeGraph.Pack
