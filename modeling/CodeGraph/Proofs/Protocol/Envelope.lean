import Mathlib
import CodeGraph.Proofs.Framing
import CodeGraph.Proofs.Pack.Json
import CodeGraph.Proofs.Protocol.Request
import CodeGraph.Protocol.Envelope

/-!
# Envelopes are read back

The entries of an envelope are read one after the other, the name of the request straight from
its octets and all others as items.  Whatever is read in this way can be written
(`unpackEntries_spec`), and entries that were written are read as they are
(`unpackEntries_entriesOf`).  With what is known of requests this gives the way back for whole
envelopes:

* `Envelope.decode_encode_of_decode` : whatever octets an envelope was decoded from, it is decoded
  again from its encoding, and from a stream to which that was written.
-/

namespace CodeGraph.Envelope

open Pack

/-! ### What is read can be written -/

/-- Whether the name of a request, if it was met and there is one, can be written. -/
def IdFits (id : Option (Option String)) : Prop :=
  ∀ name, id = some (some name) → (Utf8.encode name).length < Bytes.bound 4

lemma orMalformed_eq_ok_iff {α : Type} {read : Option α} {a : α} :
    Json.orMalformed read = .ok a ↔ read = some a := by
  cases read <;> simp [Json.orMalformed]

lemma length_of_unpackText {n : Nat} {bs rest : Bytes} {s : String}
    (h : Json.unpackText n bs = .ok (s, rest)) : (Utf8.encode s).length = n := by
  simp only [Json.unpackText, bind_eq_ok_iff, orMalformed_eq_ok_iff] at h
  obtain ⟨⟨field, bs'⟩, htake, s', hdecode, heq⟩ := h
  obtain ⟨rfl, -⟩ := Prod.mk.inj (Except.ok.inj heq)
  rw [Utf8.encode_of_decode? hdecode]
  exact (Bytes.append_of_take? htake).2

lemma idFits_of_unpackId {bs rest : Bytes} {name : Option String}
    (h : unpackId bs = .ok (name, rest)) : IdFits (some name) := by
  simp only [unpackId, bind_eq_ok_iff, orMalformed_eq_ok_iff] at h
  obtain ⟨⟨head, bs'⟩, hhead, hbody⟩ := h
  have hfits := Head.fits_of_read? hhead
  rintro s hs
  obtain rfl := Option.some.inj hs
  cases head with
  | nil => simp [pure, Except.pure] at hbody
  | str n =>
    obtain ⟨⟨s', bs''⟩, htext, heq⟩ := bind_eq_ok_iff.1 hbody
    obtain ⟨hs', -⟩ := Prod.mk.inj (Except.ok.inj heq)
    obtain rfl := Option.some.inj hs'
    rw [length_of_unpackText htext]
    exact hfits
  | bin n =>
    obtain ⟨⟨field, bs''⟩, htake, hdecoded⟩ := bind_eq_ok_iff.1 hbody
    simp only at hdecoded
    split at hdecoded
    · next s' hdecode =>
      obtain ⟨hs', -⟩ := Prod.mk.inj (Except.ok.inj hdecoded)
      obtain rfl := Option.some.inj hs'
      rw [Utf8.encode_of_decode? hdecode,
        (Bytes.append_of_take? (orMalformed_eq_ok_iff.1 htake)).2]
      exact hfits
    · simp at hdecoded
  | _ => simp at hbody

/-- The items of all entries can be written, and so can the name of the request. -/
lemma unpackEntries_spec {id found : Option (Option String)} {count : Nat} {bs : Bytes}
    {entries : List (Item × Item)} (hid : IdFits id)
    (h : unpackEntries id count bs = .ok (found, entries)) :
    IdFits found ∧ ∀ entry ∈ entries, entry.2.Fits (maxNesting - 1) := by
  induction count generalizing id bs entries with
  | zero =>
    obtain ⟨rfl, rfl⟩ := Prod.mk.inj (Except.ok.inj h)
    exact ⟨hid, fun _ hentry => by cases hentry⟩
  | succ count ih =>
    simp only [unpackEntries] at h
    obtain ⟨⟨key, bs'⟩, -, hrest⟩ := bind_eq_ok_iff.1 h
    simp only at hrest
    split at hrest
    · split at hrest
      · simp at hrest
      · obtain ⟨⟨name, bs''⟩, hname, hothers⟩ := bind_eq_ok_iff.1 hrest
        exact ih (idFits_of_unpackId hname) hothers
    · obtain ⟨⟨item, bs''⟩, hitem, hrest⟩ := bind_eq_ok_iff.1 hrest
      obtain ⟨⟨next, others⟩, hothers, heq⟩ := bind_eq_ok_iff.1 hrest
      obtain ⟨rfl, rfl⟩ := Prod.mk.inj (Except.ok.inj heq)
      obtain ⟨hfound, hfits⟩ := ih hid hothers
      refine ⟨hfound, List.forall_mem_cons.2 ⟨?_, hfits⟩⟩
      exact Item.fits_of_read? (orMalformed_eq_ok_iff.1 hitem)

/-! ### What was written is read -/

lemma unpackKey_write {name : String} (h : (Utf8.encode name).length < Bytes.bound 4)
    (rest : Bytes) : unpackKey ((Item.str name).write ++ rest) = .ok (.str name, rest) := by
  have hfits : (Head.str (Utf8.encode name).length).Fits := h
  rw [Item.write, List.append_assoc, unpackKey, Head.read?_write hfits]
  simp only [Json.orMalformed, bind, Except.bind, Item.readBody?, Bytes.take?_append,
    Option.map_some, Utf8.decode?_encode]

lemma unpackId_write {name : String} (h : (Utf8.encode name).length < Bytes.bound 4)
    (rest : Bytes) : unpackId ((Item.str name).write ++ rest) = .ok (some name, rest) := by
  have hfits : (Head.str (Utf8.encode name).length).Fits := h
  rw [Item.write, List.append_assoc, unpackId, Head.read?_write hfits]
  simp only [Json.orMalformed, bind, Except.bind, Json.unpackText_encode]
  rfl

/-- Entries of other names are read as they were written. -/
lemma unpackEntries_entriesOf {id : Option (Option String)} {fields : List (String × Item)}
    (hfits : ∀ field ∈ fields, Item.FieldFits (maxNesting - 1) field)
    (hnames : ∀ field ∈ fields, field.1 ≠ idKey) (rest : Bytes) :
    unpackEntries id fields.length (Item.writeEntries (entriesOf fields) ++ rest)
      = .ok (id, entriesOf fields) := by
  induction fields with
  | nil => rfl
  | cons field fields ih =>
    obtain ⟨name, item⟩ := field
    have hothers := ih (fun other hother => hfits other (List.mem_cons_of_mem _ hother))
      fun other hother => hnames other (List.mem_cons_of_mem _ hother)
    obtain ⟨hshort, hitemFits⟩ := hfits _ List.mem_cons_self
    have hkey := unpackKey_write hshort
      (item.write ++ (Item.writeEntries (entriesOf fields) ++ rest))
    have hother : Request.isKey idKey (.str name) = false := by
      have hne : name ≠ idKey := hnames _ List.mem_cons_self
      simpa [Request.isKey, Item.asText] using hne
    have hitem := Item.read?_write hitemFits
      (Item.writeEntries (entriesOf fields) ++ rest)
    have hentries : entriesOf ((name, item) :: fields) = (.str name, item) :: entriesOf fields :=
      rfl
    simp only at hkey hitem
    rw [hentries, Item.writeEntries, List.append_assoc, List.append_assoc, List.length_cons]
    simp only [unpackEntries, hkey, hother, hitem, hothers, Json.orMalformed, bind, Except.bind,
      pure, Except.pure, Bool.false_eq_true, if_false]

/-! ### Envelopes -/

lemma short_idKey : (Utf8.encode idKey).length < Bytes.bound 4 := by
  decide +kernel

lemma short_commandKey : (Utf8.encode Request.commandKey).length < Bytes.bound 4 := by
  decide +kernel

lemma commandKey_ne_idKey : Request.commandKey ≠ idKey := by
  decide

/-- The command and its arguments as they stand in an envelope. -/
def requestFields (request : Request) : List (String × Item) :=
  (Request.commandKey, .str request.name) :: request.arguments

/-- All fields of an envelope, the name of the request among them. -/
def fields (e : Envelope) : List (String × Item) :=
  fieldIfSome idKey .str e.requestId ++ requestFields e.request

lemma toItem_eq (e : Envelope) : e.toItem = .record e.fields :=
  rfl

/-- Whether an envelope can be written, and its request is read from its own fields. -/
structure Rereads (e : Envelope) : Prop where
  id : IdFits (some e.requestId)
  name : (Utf8.encode e.request.name).length < Bytes.bound 4
  arguments : Request.Writable (maxNesting - 1) e.request.arguments
  request : Request.ofEntries (entriesOf (requestFields e.request)) = .ok e.request

/-- Whatever an envelope was decoded from, it can be written. -/
lemma rereads_of_decode {bs : Bytes} {e : Envelope} (h : decode bs = .ok e) : e.Rereads := by
  simp only [decode, bind_eq_ok_iff, orMalformed_eq_ok_iff] at h
  obtain ⟨⟨head, bs'⟩, -, hbody⟩ := h
  cases head with
  | map n =>
    obtain ⟨⟨id, entries⟩, hentries, hrest⟩ := bind_eq_ok_iff.1 hbody
    obtain ⟨request, hrequest, heq⟩ := bind_eq_ok_iff.1 hrest
    obtain rfl := Except.ok.inj heq
    obtain ⟨hid, hfits⟩ := unpackEntries_spec (fun _ hname => by cases hname) hentries
    have hdepth : maxNesting - 1 = 1021 + 1 := rfl
    rw [hdepth] at hfits
    obtain ⟨hname, harguments, hback⟩ := Request.ofEntries_written hfits hrequest
    refine ⟨fun s hs => hid s ?_, hname, harguments, hback⟩
    exact Option.join_eq_some_iff.1 (Option.some.inj hs)
  | _ => simp at hbody

namespace Rereads

variable {e : Envelope}

lemma names (h : e.Rereads) : ∀ field ∈ requestFields e.request, field.1 ≠ idKey :=
  List.forall_mem_cons.2 ⟨commandKey_ne_idKey, h.arguments.id⟩

lemma fits (h : e.Rereads) : ∀ field ∈ requestFields e.request,
    Item.FieldFits (maxNesting - 1) field :=
  List.forall_mem_cons.2 ⟨⟨short_commandKey, .str h.name⟩, h.arguments.fits⟩

lemma fits_id (h : e.Rereads) : ∀ field ∈ fieldIfSome idKey .str e.requestId,
    Item.FieldFits (maxNesting - 1) field := by
  cases hid : e.requestId with
  | none => simp [fieldIfSome]
  | some name =>
    simp only [fieldIfSome, List.mem_singleton, forall_eq]
    exact ⟨short_idKey, .str (h.id name (by rw [hid]))⟩

lemma length_fields_le (h : e.Rereads) : e.fields.length ≤ 6 := by
  have hid : (fieldIfSome idKey Item.str e.requestId).length ≤ 1 := by
    cases e.requestId <;> simp [fieldIfSome]
  have hfew := h.arguments.few
  rw [fields, List.length_append, requestFields, List.length_cons]
  omega

/-- The item of an envelope can be written. -/
lemma fits_toItem (h : e.Rereads) : e.toItem.Fits maxNesting :=
  Item.fits_record (lt_of_le_of_lt h.length_fields_le (by decide))
    (List.forall_mem_append.2 ⟨h.fits_id, h.fits⟩)

/-- The name of the request is read first, then all else is kept for the command. -/
lemma unpackEntries_fields (h : e.Rereads) (rest : Bytes) :
    ∃ id, id.join = e.requestId ∧
      unpackEntries none e.fields.length (Item.writeEntries (entriesOf e.fields) ++ rest)
        = .ok (id, entriesOf (requestFields e.request)) := by
  have hothers (id : Option (Option String)) :
      unpackEntries id (requestFields e.request).length
        (Item.writeEntries (entriesOf (requestFields e.request)) ++ rest)
          = .ok (id, entriesOf (requestFields e.request)) :=
    unpackEntries_entriesOf h.fits h.names rest
  unfold fields
  cases hid : e.requestId with
  | none => exact ⟨none, rfl, hothers none⟩
  | some name =>
    refine ⟨some (some name), rfl, ?_⟩
    have hkey := unpackKey_write short_idKey ((Item.str name).write ++
      (Item.writeEntries (entriesOf (requestFields e.request)) ++ rest))
    have hname := unpackId_write (h.id name (by rw [hid]))
      (Item.writeEntries (entriesOf (requestFields e.request)) ++ rest)
    have hfields : entriesOf (fieldIfSome idKey .str (some name) ++ requestFields e.request)
        = (.str idKey, .str name) :: entriesOf (requestFields e.request) := rfl
    have hlength : (fieldIfSome idKey Item.str (some name) ++ requestFields e.request).length
        = (requestFields e.request).length + 1 := rfl
    have hisId : Request.isKey idKey (.str idKey) = true := by decide
    rw [hfields, hlength, Item.writeEntries, List.append_assoc, List.append_assoc, unpackEntries]
    simp only [hkey, hisId, hname, hothers, bind, Except.bind, Option.isSome_none, if_true,
      Bool.false_eq_true, if_false]

/-- An envelope is decoded from its encoding, whatever follows that. -/
lemma decode_encode (h : e.Rereads) (rest : Bytes) : decode (e.encode ++ rest) = .ok e := by
  obtain ⟨id, hid, hentries⟩ := h.unpackEntries_fields rest
  have hhead : (Head.map e.fields.length).Fits :=
    lt_of_le_of_lt h.length_fields_le (by decide)
  have hlength : (entriesOf e.fields).length = e.fields.length := List.length_map _
  rw [encode, toItem_eq, record_eq, Item.write, List.append_assoc, decode, hlength,
    Head.read?_write hhead]
  simp only [Json.orMalformed, bind, Except.bind, hentries, h.request, hid]
  rfl

end Rereads

/-- Whatever octets an envelope was decoded from, its document has room for all its lengths and
nests no deeper than can be read, and the same envelope is decoded from its encoding.  If the
encoding is not too large it has a frame, and from any stream that goes on with the frame, in
whatever pieces it comes, a message is read from which the same envelope is decoded. -/
theorem decode_encode_of_decode {bs : Bytes} {e : Envelope} (h : decode bs = .ok e) :
    e.toItem.Fits maxNesting ∧ decode e.encode = .ok e ∧
      (e.encode.length ≤ maxMessageSize → ∃ frame, Framing.frame? e.encode = some frame ∧
        ∀ rest schedule, ∃ message source,
          (Framing.Source.start (frame ++ rest) schedule).read = (.ok (some message), source) ∧
            source.ahead = rest ∧ decode message = .ok e) := by
  have hrereads := rereads_of_decode h
  have hback : decode e.encode = .ok e := by
    have hdecode := hrereads.decode_encode []
    rwa [List.append_nil] at hdecode
  refine ⟨hrereads.fits_toItem, hback, fun hsize => ?_⟩
  obtain ⟨frame, hframe⟩ : ∃ frame, Framing.frame? e.encode = some frame := by
    rw [Framing.frame?_eq, if_neg (not_lt.2 hsize)]
    exact ⟨_, rfl⟩
  refine ⟨frame, hframe, fun rest schedule => ?_⟩
  obtain ⟨turn, hread⟩ := (Framing.Source.start (frame ++ rest) schedule).read_spec
  have hnext := Framing.next_frame hframe rest
  have hahead : (Framing.Source.start (frame ++ rest) schedule).ahead = frame ++ rest := rfl
  rw [hahead, hnext] at hread
  exact ⟨e.encode, _, hread, rfl, hback⟩

/-- A document of a foreign client: the command is given by its number under octets for a key, the
query by an alias and twice by one further key, there is a key that nothing asks for, and the name
of the request comes last and as octets. -/
def foreign : Bytes :=
  [0x84, 0xc4, 3, 0x63, 0x6d, 0x64, 17, 0xa3, 0x66, 0x6f, 0x6f, 0x91, 1,
    0xa5, 0x71, 0x75, 0x65, 0x72, 0x79, 0x83, 0xa4, 0x74, 0x79, 0x70, 0x65, 0xc4, 1, 0x58,
    0xa1, 0x6b, 0xc0, 0xc4, 1, 0x6b, 0xd1, 0, 5,
    0xa9, 0x72, 0x65, 0x71, 0x75, 0x65, 0x73, 0x74, 0x49, 0x64, 0xc4, 1, 0x37]

/-- The envelope that the foreign client means. -/
def foreignEnvelope : Envelope :=
  ⟨some "7", .findByAttr ⟨some "X", none, none, none, .ofList [("k", Json.int 5)]⟩⟩

set_option maxRecDepth 2000 in
lemma decode_foreign : decode foreign = .ok foreignEnvelope :=
  rfl

theorem foreign_decoded_again :
    decode foreign = .ok foreignEnvelope ∧ foreignEnvelope.encode ≠ foreign ∧
      decode foreignEnvelope.encode = .ok foreignEnvelope ∧
        ∃ frame, Framing.frame? foreignEnvelope.encode = some frame ∧ ∀ rest schedule,
          ∃ message source,
            (Framing.Source.start (frame ++ rest) schedule).read = (.ok (some message), source) ∧
              source.ahead = rest ∧ decode message = .ok foreignEnvelope := by
  obtain ⟨-, hback, hframe⟩ := decode_encode_of_decode decode_foreign
  exact ⟨decode_foreign, by decide +kernel, hback, hframe (by decide +kernel)⟩

end CodeGraph.Envelope
