import Mathlib
import CodeGraph.Proofs.Client.Reply
import CodeGraph.Proofs.Pack.Document

/-!
# Replies without a tag

A reply is told apart from others by its keys alone, and the name of the request stands among
them.  So no reply may have that key itself, none but an error may have the key of an error, and
none but a part of a stream both keys of a part.  This is a matter of the keys
(`Response.nodup_keys`, `Response.idKey_notMem_keys`, `Response.error_mem_keys_iff`,
`Response.chunk_keys_iff`); what a client then makes of the octets is
`Response.exists_reply_of_fits`.
-/

namespace CodeGraph

open Pack Json

namespace Json.StandFor

variable {fields : List (String × Item)} {members : List (String × Json)}

/-- A member is found exactly under the names of the fields. -/
lemma isSome_lookup_iff (h : StandFor fields members) {name : String} :
    (members.lookup name).isSome ↔ name ∈ fields.map Prod.fst := by
  rw [h.names_eq, List.mem_map]
  constructor
  · intro hsome
    obtain ⟨value, hvalue⟩ := Option.isSome_iff_exists.1 hsome
    obtain ⟨before, after, rfl, -⟩ := List.lookup_eq_some_iff.1 hvalue
    exact ⟨(name, value), by simp, rfl⟩
  · rintro ⟨member, hmember, rfl⟩
    by_contra hnone
    rw [Option.not_isSome_iff_eq_none, List.lookup_eq_none_iff] at hnone
    simpa using hnone member hmember

end Json.StandFor

namespace Response

/-- The keys of a reply, without the name of the request. -/
def keys (response : Response) : List String :=
  response.fields.map Prod.fst

/-- Whether a reply is a part of a stream. -/
def isChunk : Response → Bool
  | nodesChunk .. => true
  | _ => false

/-! ### Keys -/

lemma nodup_keys (response : Response) : response.keys.Nodup := by
  cases response <;>
    simp only [keys, fields, statsFields, List.map_cons, List.map_nil] <;> decide

lemma idKey_notMem_keys (response : Response) : Client.Reply.idKey ∉ response.keys := by
  cases response <;>
    simp only [keys, fields, statsFields, List.map_cons, List.map_nil] <;> decide

/-- Only errors have the key of an error. -/
lemma error_mem_keys_iff (response : Response) :
    "error" ∈ response.keys ↔ response.isError = true := by
  cases response <;>
    simp only [keys, fields, statsFields, List.map_cons, List.map_nil, isError] <;> decide

/-- Only parts of a stream have both keys of a part. -/
lemma chunk_keys_iff (response : Response) :
    ("done" ∈ response.keys ∧ "chunkIndex" ∈ response.keys) ↔ response.isChunk = true := by
  cases response <;>
    simp only [keys, fields, statsFields, List.map_cons, List.map_nil, isChunk] <;> decide

/-! ### Fields -/

section Readable

@[simp] lemma readable_nil : Readable .nil := ⟨.null, rfl⟩

@[simp] lemma readable_str (s : String) : Readable (.str s) := ⟨.str s, rfl⟩

@[simp] lemma readable_bool (b : Bool) : Readable (.bool b) := ⟨.bool b, rfl⟩

@[simp] lemma readable_ofNat (n : Nat) : Readable (.ofNat n) := ⟨.int n, rfl⟩

@[simp] lemma readable_word (n : UInt64) : Readable (word n) := readable_ofNat n.toNat

@[simp] lemma readable_float32 (bits : UInt32) : Readable (.float32 bits) := ⟨_, rfl⟩

@[simp] lemma readable_textOrNil (text : Option String) : Readable (textOrNil text) := by
  cases text with
  | none => exact readable_nil
  | some s => exact readable_str s

@[simp] lemma readable_ofTexts (texts : List String) : Readable (.ofTexts texts) :=
  readable_arr_map readable_str texts

@[simp] lemma readable_ofTextMap (map : Std.ExtTreeMap String String) :
    Readable (.ofTextMap map) :=
  readable_record (List.forall_mem_map.2 fun entry _ => readable_str entry.2)

lemma readable_fieldIfSome (name : String) (text : Option String) :
    ∀ field ∈ fieldIfSome name .str text, Readable field.2 := by
  cases text with
  | none => simp [fieldIfSome]
  | some s => simp [fieldIfSome]

@[simp] lemma readable_node (node : Wire.Node) : Readable node.toItem := by
  have hexported : ∀ field ∈ (if node.exported then [("exported", Item.bool true)] else []),
      Readable field.2 := by
    split
    · simp
    · simp
  refine readable_record ?_
  simp only [List.forall_mem_append]
  refine ⟨⟨⟨⟨⟨⟨by simp, ?_⟩, ?_⟩, ?_⟩, ?_⟩, hexported⟩, ?_⟩
  all_goals exact readable_fieldIfSome _ _

@[simp] lemma readable_edge (edge : Wire.Edge) : Readable edge.toItem := by
  refine readable_record ?_
  simp only [List.forall_mem_append]
  refine ⟨⟨by simp, ?_⟩, ?_⟩
  all_goals exact readable_fieldIfSome _ _

@[simp] lemma readable_databaseItem (info : DatabaseInfo) : Readable (databaseItem info) :=
  readable_record (by simp)

@[simp] lemma readable_deltaItem (delta : CommitDelta) : Readable (deltaItem delta) :=
  readable_record (by simp)

@[simp] lemma readable_snapshotItem (entry : Nat × Snapshot) : Readable (snapshotItem entry) :=
  readable_record (by simp)

@[simp] lemma readable_sizeItem (nodes edges : Nat) : Readable (sizeItem nodes edges) :=
  readable_record (by simp)

@[simp] lemma readable_diffItem (diff : SnapshotDiff) : Readable (diffItem diff) :=
  readable_record (by simp)

@[simp] lemma readable_bindingsItem (bindings : List (String × String)) :
    Readable (bindingsItem bindings) := by
  refine readable_record (List.forall_mem_singleton.2 ?_)
  exact readable_record (List.forall_mem_map.2 fun binding _ => readable_str binding.2)

@[simp] lemma readable_slowQueryItem (query : SlowQuery) : Readable (slowQueryItem query) :=
  readable_record (by simp)

@[simp] lemma readable_commandItem (entry : String × CommandCount) :
    Readable (commandItem entry) :=
  readable_record (by simp)

end Readable

/-- Every field of a reply stands for a value. -/
lemma readable_fields (response : Response) : ∀ field ∈ response.fields, Readable field.2 := by
  cases response with
  | counts all =>
    refine List.forall_mem_singleton.2 ?_
    exact readable_record (List.forall_mem_map.2 fun count _ => readable_ofNat count.2)
  | node found => cases found <;> simp [fields]
  | snapshotVersion version => cases version <;> simp [fields]
  | _ => simp [fields, statsFields, readable_arr_map]

/-! ### What a client gets -/

open Client (Reply)

/-- A reply that can be written reaches a client as a map that has the name of the request, if
the request had one, and that is an error or a part of a stream exactly when the reply is. -/
theorem exists_reply_of_fits {requestId : Option String} {response : Response}
    (h : (response.toItem requestId).Fits maxNesting) :
    ∃ reply, Reply.ofBytes (response.encode requestId) = .ok reply ∧
      reply.get? Reply.idKey = requestId.map .str ∧ reply.isError = response.isError ∧
      reply.isChunk = response.isChunk := by
  obtain ⟨members, hmembers⟩ := exists_standFor response.readable_fields
  have hlookup (name : String) : (members.lookup name).isSome ↔ name ∈ response.keys :=
    hmembers.isSome_lookup_iff
  have hname : members.lookup Reply.idKey = none := by
    rw [← Option.not_isSome_iff_eq_none, hlookup]
    exact response.idKey_notMem_keys
  have hnodup : (members.map Prod.fst).Nodup := hmembers.names_eq ▸ response.nodup_keys
  -- The name of the request is one more member, under a key that no reply has.
  set all := Wire.textMember Reply.idKey requestId ++ members with hall
  have hstand : StandFor (fieldIfSome "requestId" .str requestId ++ response.fields) all := by
    refine List.rel_append ?_ hmembers
    cases requestId with
    | none => exact .nil
    | some name => exact .cons ⟨rfl, rfl⟩ .nil
  have hdistinct : (all.map Prod.fst).Nodup := by
    rw [hall, List.map_append]
    cases requestId with
    | none => exact hnodup
    | some name =>
      refine List.nodup_cons.2 ⟨fun hkey => ?_, hnodup⟩
      rw [← hmembers.names_eq] at hkey
      exact response.idKey_notMem_keys hkey
  have hget (key : String) : Reply.get? ⟨sortMembers all⟩ key
      = (if key = Reply.idKey then requestId.map .str else none).or (members.lookup key) := by
    rw [Reply.get?_sortMembers hdistinct, hall, List.lookup_append, Wire.lookup_textMember]
  have hread : Reply.ofBytes (response.encode requestId) = .ok ⟨sortMembers all⟩ := by
    rw [Reply.ofBytes, encode, unpack_write_ofItem h hstand.ofItem_record]
    rfl
  refine ⟨_, hread, ?_, ?_, ?_⟩
  · rw [hget, if_pos rfl, hname, Option.or_none]
  · rw [Reply.isError, hget, if_neg (by decide), Option.none_or, Bool.eq_iff_iff, hlookup]
    exact response.error_mem_keys_iff
  · rw [Reply.isChunk, hget, hget, if_neg (by decide), if_neg (by decide), Option.none_or,
      Option.none_or, Bool.eq_iff_iff, Bool.and_eq_true, hlookup, hlookup]
    exact response.chunk_keys_iff

end Response

end CodeGraph
