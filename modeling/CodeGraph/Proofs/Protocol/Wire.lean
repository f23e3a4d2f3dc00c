import Mathlib
import CodeGraph.Proofs.Pack.Fields
import CodeGraph.Protocol.Wire

/-!
# What clients write is read back

Nodes, edges and field declarations are records, so the lemmas on fields apply to them.  A query
is a record with further keys: a key that stands for no attribute is kept as it is, and is never
taken for an attribute when it is read again (`Query.slotOf_text`).  Attributes are written only
when they were found (`Query.attributes_found`), so a query is written with no more entries than
it was read from.
-/

namespace CodeGraph.Wire

open Pack

variable {depth : Nat}

lemma rereads_text (name : String) (aliases : List String := []) :
    (text name aliases).Rereads depth fun s given => given = [(name, .str s)] :=
  Fields.rereads_required Item.rereads_asText

lemma rereads_text? (name : String) (aliases : List String := []) :
    (text? name aliases).Rereads depth fun s given => given = fieldIfSome name .str s :=
  Fields.rereads_ifSome Item.rereads_asText fun _ => Item.noConfusion

lemma rereads_texts? (name : String) :
    (texts? name).Rereads depth fun texts given => given = fieldIfSome name .ofTexts texts :=
  Fields.rereads_ifSome Item.rereads_asText.asList fun _ => Item.noConfusion

/-- Nodes are written by their fields, the flag only when it holds. -/
theorem Node.rereads : Item.Rereads Node.fields.ofItem Node.toItem := by
  change Item.Rereads Node.fields.ofItem fun node => .record _
  refine Fields.Rereads.ofItem (by decide +kernel) fun depth => ?_
  have hfirst : (Node.mk <$> text "id" <*> text? "semanticId" <*> text? "type" ["nodeType"]
      <*> text? "name").Rereads depth fun make given => ∃ id semanticId type name,
        make = Node.mk id semanticId type name ∧
          given = [("id", .str id)] ++ fieldIfSome "semanticId" .str semanticId ++
            fieldIfSome "type" .str type ++ fieldIfSome "name" .str name :=
    Fields.rereads_four (rereads_text "id") (rereads_text? "semanticId")
      (rereads_text? "type" ["nodeType"]) (rereads_text? "name")
      fun id semanticId type name => ⟨id, semanticId, type, name, rfl, rfl⟩
  have hexported : (flag "exported").Rereads depth fun exported given =>
      given = if exported then [("exported", .bool true)] else [] :=
    Fields.rereads_ifTrue
  refine Fields.Rereads.imp
    (((hfirst.seq (rereads_text? "file")).seq hexported).seq (rereads_text? "metadata")) ?_
  rintro _ _ ⟨_, metadata, _, _, rfl, rfl, ⟨_, exported, _, _, rfl, rfl,
    ⟨_, file, _, _, rfl, rfl, ⟨id, semanticId, type, name, rfl, rfl⟩, rfl⟩, rfl⟩, rfl⟩
  rfl

/-- Edges are written by their fields. -/
theorem Edge.rereads : Item.Rereads Edge.fields.ofItem Edge.toItem := by
  change Item.Rereads Edge.fields.ofItem fun edge => .record _
  refine Fields.Rereads.ofItem (by decide +kernel) fun depth => ?_
  exact Fields.rereads_four (rereads_text "src") (rereads_text "dst")
    (rereads_text? "edgeType" ["type"]) (rereads_text? "metadata") fun _ _ _ _ => rfl

/-- Declarations are written by their fields. -/
theorem Field.rereads : Item.Rereads Field.fields.ofItem Field.toItem := by
  change Item.Rereads Field.fields.ofItem fun field => .record _
  refine Fields.Rereads.ofItem (by decide +kernel) fun depth => ?_
  exact Fields.rereads_three (rereads_text "name") (rereads_text? "fieldType")
    (rereads_texts? "nodeTypes") fun _ _ _ => rfl

/-! ### Queries -/

namespace Query

/-- The attributes of a query as they are written. -/
def attributes (query : Query) : List (String × Item) :=
  fieldIfSome "nodeType" .str query.type ++ fieldIfSome "name" .str query.name ++
    fieldIfSome "file" .str query.file ++ fieldIfSome "exported" .bool query.exported

/-- The further keys of a query as they are written. -/
def furtherKeys (query : Query) : List (String × Item) :=
  query.extra.toList.map fun member => (member.1, member.2.toItem .shortest)

lemma toItem_eq (query : Query) :
    query.toItem = .record (query.attributes ++ query.furtherKeys) :=
  rfl

lemma wellNamed : WellNamed (Query.fields ∅).slots := by
  decide +kernel

lemma rereads_fields (extra : Std.ExtTreeMap String Json) :
    (Query.fields extra).Rereads depth
      fun query given => query.extra = extra ∧ given = query.attributes :=
  Fields.rereads_four (rereads_text? "nodeType" ["type"]) (rereads_text? "name")
    (rereads_text? "file") (Fields.rereads_ifSome Item.rereads_asBool fun _ => Item.noConfusion)
    fun _ _ _ _ => ⟨rfl, rfl⟩

lemma isSome_of_build {α : Type} {name : String} {read : Item → Except Fault α}
    {aliases : List String} {found : String → Option Item} {a : Option α}
    (h : (Fields.optional name (Item.asOption read) none aliases).build found = .ok a)
    (write : α → Item) : ∀ field ∈ fieldIfSome name write a, (found field.1).isSome := by
  simp only [Fields.optional] at h
  split at h
  · next item hitem =>
    cases a with
    | none => simp [fieldIfSome]
    | some a => simp [fieldIfSome, hitem]
  · obtain rfl := Except.ok.inj h
    simp [fieldIfSome]

/-- Attributes are written only when they were found. -/
lemma attributes_found {extra : Std.ExtTreeMap String Json} {found : String → Option Item}
    {query : Query} (h : (Query.fields extra).build found = .ok query) :
    ∀ field ∈ query.attributes, (found field.1).isSome := by
  simp only [Query.fields, Fields.build_seq_eq_ok_iff, Fields.build_map_eq_ok_iff] at h
  obtain ⟨_, ⟨_, ⟨_, ⟨type, htype, rfl⟩, name, hname, rfl⟩, file, hfile, rfl⟩, exported, hexported,
    rfl⟩ := h
  simp only [attributes, List.mem_append]
  rintro field (((hfield | hfield) | hfield) | hfield)
  · exact isSome_of_build htype .str field hfield
  · exact isSome_of_build hname .str field hfield
  · exact isSome_of_build hfile .str field hfield
  · exact isSome_of_build hexported .bool field hfield

/-- Which attribute a text stands for does not depend on how the text is given. -/
lemma slotOf_text {key : Item} {s : String} (h : key.asText = .ok s) :
    Query.slotOf key = .ok (Fields.slotNamed? (Query.fields ∅).slots s) := by
  cases key with
  | str =>
    obtain rfl := Except.ok.inj h
    rfl
  | bin content => simp only [Query.slotOf, Fields.slotByName?, h]
  | _ => simp [Item.asText] at h

/-- A further key of a query with what it asks for. -/
def readFurther (entry : Item × Item) : Except Fault (String × Json) := do
  let key ← entry.1.asText
  let value ← Json.ofItem entry.2
  pure (key, value)

lemma readFurther_eq_ok_iff {entry : Item × Item} {member : String × Json} :
    readFurther entry = .ok member
      ↔ entry.1.asText = .ok member.1 ∧ Json.ofItem entry.2 = .ok member.2 := by
  obtain ⟨key, value⟩ := member
  simp only [readFurther, bind_eq_ok_iff, pure, Except.pure, Except.ok.injEq, Prod.mk.injEq]
  grind

lemma ofItem_map (entries : List (Item × Item)) : Query.ofItem (.map entries) = (do
    let found ← Fields.collect Query.slotOf ⟨[], []⟩ entries
    let extra ← found.others.mapM readFurther
    (Query.fields (.ofList extra)).build (found.fields.lookup ·)) :=
  rfl

/-- Whether a key can be written and stands for no attribute, and what it asks for is read
back. -/
structure IsFurther (depth : Nat) (member : String × Json) : Prop where
  slot : Query.slotOf (.str member.1) = .ok none
  fits : Item.FieldFits depth (member.1, member.2.toItem .shortest)
  value : Json.ofItem (member.2.toItem .shortest) = .ok member.2

lemma isFurther_of_read {entry : Item × Item} {member : String × Json}
    (hkey : entry.1.Fits depth) (hvalue : entry.2.Fits depth)
    (hslot : Query.slotOf entry.1 = .ok none) (hread : readFurther entry = .ok member) :
    IsFurther depth member := by
  obtain ⟨htext, hjson⟩ := readFurther_eq_ok_iff.1 hread
  obtain ⟨hfits, hback⟩ := Json.rereads_ofItem depth entry.2 member.2 hvalue hjson
  rw [slotOf_text htext] at hslot
  exact ⟨hslot, ⟨Item.fits_of_asText hkey htext, hfits⟩, hback⟩

/-- A query is read from its attributes and its further keys as they are written. -/
lemma ofItem_toItem {query : Query} (hfurther : ∀ member ∈ query.extra.toList,
      IsFurther depth member)
    (h : (Query.fields query.extra).Reads query.attributes query) :
    Query.ofItem query.toItem = .ok query := by
  have hnames : WellNamed (Query.fields query.extra).slots := wellNamed
  have hnodup := h.names.nodup hnames.nodup
  have hslots : ∀ field ∈ query.attributes, ∃ slot,
      Query.slotOf (.str field.1) = .ok (some slot) ∧ slot.name = field.1 ∧
        slot.check field.2 = .ok () := by
    intro field hfield
    obtain ⟨slot, hslot, hname, hcheck⟩ := h.slots_named hnames field hfield
    exact ⟨slot, congrArg Except.ok hslot, hname, hcheck⟩
  have hothers : ∀ entry ∈ entriesOf query.furtherKeys, Query.slotOf entry.1 = .ok none := by
    simp only [entriesOf, furtherKeys, List.forall_mem_map]
    exact fun member hmember => (hfurther member hmember).slot
  have hcollect : Fields.collect Query.slotOf ⟨[], []⟩
      (entriesOf query.attributes ++ entriesOf query.furtherKeys)
        = .ok ⟨query.attributes.reverse ++ [], entriesOf query.furtherKeys⟩ := by
    rw [Fields.collect_given hslots hnodup fun _ _ => rfl, Fields.collect_others hothers]
    rfl
  have hextra : (entriesOf query.furtherKeys).mapM readFurther = .ok query.extra.toList := by
    rw [mapM_eq_ok_iff, entriesOf, furtherKeys, List.map_map, List.forall₂_map_left_iff,
      List.forall₂_same]
    exact fun member hmember => readFurther_eq_ok_iff.2 ⟨rfl, (hfurther member hmember).value⟩
  rw [toItem_eq, record_eq, entriesOf_append, ofItem_map]
  simp only [bind_eq_ok_iff]
  refine ⟨_, hcollect, _, hextra, ?_⟩
  rw [map_ofList_toList]
  refine h.build _ fun slot _ => ?_
  rw [List.append_nil, lookup_reverse hnodup]

/-- Queries are written by their attributes and then their further keys. -/
theorem rereads : Item.Rereads Query.ofItem Query.toItem := by
  intro depth item query hfits hread
  cases hfits with
  | @map below entries hcount hkeys hvalues =>
    simp only [ofItem_map, bind_eq_ok_iff] at hread
    obtain ⟨found, hcollect, members, hmembers, hbuild⟩ := hread
    have hcovers := Fields.covers_of_collect hcollect
    have hall := mapM_eq_ok_iff.1 hmembers
    have hnames : WellNamed (Query.fields (.ofList members)).slots := wellNamed
    have hitems : ∀ name item, found.fields.lookup name = some item → item.Fits below := by
      intro name item hitem
      obtain ⟨entry, hentry, heq⟩ := hcovers.fields (name, item) (mem_of_lookup hitem)
      obtain rfl : entry.2 = item := heq
      exact hvalues entry hentry
    obtain ⟨_, ⟨hextra, rfl⟩, hreads, hattributes⟩ :=
      rereads_fields _ hnames.nodup _ query hitems hbuild
    have hfurther : ∀ member ∈ query.extra.toList, IsFurther below member := by
      rw [hextra]
      intro member hmember
      obtain ⟨entry, hentry, hread⟩ := exists_of_mem_right hall (mem_of_mem_map_ofList hmember)
      obtain ⟨hmem, hslot⟩ := hcovers.others entry hentry
      exact isFurther_of_read (hkeys entry hmem) (hvalues entry hmem) hslot hread
    -- Attributes are written only when they were found, so there are no more entries than before.
    have hlength : query.attributes.length + query.extra.toList.length ≤ entries.length := by
      have hfields : query.attributes.length ≤ found.fields.length := by
        have hsubset : query.attributes.map Prod.fst ⊆ found.fields.map Prod.fst := by
          intro name hname
          obtain ⟨field, hfield, rfl⟩ := List.mem_map.1 hname
          have hsome := attributes_found hbuild field hfield
          obtain ⟨item, hitem⟩ := Option.isSome_iff_exists.1 hsome
          exact List.mem_map.2 ⟨(field.1, item), mem_of_lookup hitem, rfl⟩
        have hle := ((hreads.names.nodup hnames.nodup).subperm hsubset).length_le
        rwa [List.length_map, List.length_map] at hle
      have hothers : query.extra.toList.length ≤ found.others.length := by
        rw [hextra, Std.ExtTreeMap.length_toList, hall.length_eq]
        exact Std.ExtTreeMap.size_ofList_le
      have hentries := hcovers.length
      omega
    constructor
    · refine Item.fits_record ?_ (List.forall_mem_append.2
        ⟨hreads.fieldFits hnames hattributes, List.forall_mem_map.2 fun member hmember => ?_⟩)
      · rw [List.length_append, List.length_map]
        exact lt_of_le_of_lt hlength hcount
      · exact (hfurther member hmember).fits
    · rw [← hextra] at hreads
      exact ofItem_toItem hfurther hreads
  | _ => simp [Query.ofItem] at hread

end Query

end CodeGraph.Wire
