import Mathlib
import CodeGraph.Client.Unix
import CodeGraph.Proofs.Pack.Json
import CodeGraph.Protocol.Response

/-!
# Replies as clients get them

A reply that is not too large for a message reaches the client as a map: the name of the
request and what each field of the reply is read as (`Response.ofBytes_encode`).  A node in it is
the object of its parts (`Wire.Node.json`), which tells different nodes apart
(`Wire.Node.json_injective`).
-/

namespace CodeGraph

open Pack Json

/-! ### Nodes -/

namespace Wire

/-- The member for a text, if there is one. -/
def textMember (name : String) (text : Option String) : List (String × Json) :=
  (text.map fun s => (name, .str s)).toList

/-- What a node is read as, part by part. -/
def Node.members (node : Node) : List (String × Json) :=
  [("id", .str node.id)] ++ textMember "semanticId" node.semanticId ++
    textMember "type" node.type ++ textMember "name" node.name ++ textMember "file" node.file ++
    (if node.exported then [("exported", .bool true)] else []) ++
    textMember "metadata" node.metadata

/-- A node as clients get it; absent parts are left out. -/
def Node.json (node : Node) : Json :=
  .object node.members

lemma membersReadAs_textMember (depth : Nat) (name : String) (text : Option String) :
    MembersReadAs depth (fieldIfSome name .str text) (textMember name text) := by
  cases text with
  | none => exact .nil
  | some s => exact .cons (readAs_str s) .nil

lemma Node.readAs_json (depth : Nat) (node : Node) : ReadAs (depth + 1) node.toItem node.json := by
  have hexported : MembersReadAs depth
      (if node.exported then [("exported", .bool true)] else [])
      (if node.exported then [("exported", .bool true)] else []) := by
    split
    · exact .cons (readAs_bool true) .nil
    · exact .nil
  refine readAs_record ?_
  refine .append (.append (.append (.append (.append (.append ?_ ?_) ?_) ?_) ?_) hexported) ?_
  · exact .cons (readAs_str node.id) .nil
  all_goals exact membersReadAs_textMember ..

lemma lookup_single (key name : String) (value : Json) :
    [(name, value)].lookup key = if key = name then some value else none := by
  rw [List.lookup_cons, List.lookup_nil]
  by_cases heq : key = name
  · simp [heq]
  · have hne : (key == name) = false := beq_eq_false_iff_ne.2 heq
    simp [hne, heq]

lemma lookup_textMember (key name : String) (text : Option String) :
    (textMember name text).lookup key = if key = name then text.map .str else none := by
  cases text with
  | none => simp [textMember]
  | some s => exact lookup_single key name (.str s)

/-- The parts of a node stand under different keys. -/
lemma Node.nodup_members (node : Node) : (node.members.map Prod.fst).Nodup := by
  have htext : ∀ name text, ((textMember name text).map Prod.fst).Sublist [name] := by
    intro name text
    cases text with
    | none => exact List.nil_sublist _
    | some s => exact List.Sublist.refl _
  have hexported : ((if node.exported then [("exported", Json.bool true)] else []).map
      Prod.fst).Sublist ["exported"] := by
    split
    · exact List.Sublist.refl _
    · exact List.nil_sublist _
  have hsub : (node.members.map Prod.fst).Sublist (["id"] ++ ["semanticId"] ++ ["type"] ++
      ["name"] ++ ["file"] ++ ["exported"] ++ ["metadata"]) := by
    simp only [members, List.map_append]
    refine .append (.append (.append (.append (.append (.append ?_ ?_) ?_) ?_) ?_) hexported) ?_
    · exact List.Sublist.refl _
    all_goals exact htext ..
  exact hsub.nodup (by decide)

/-- Clients tell different nodes apart. -/
theorem Node.json_injective : Function.Injective Node.json := by
  intro a b heq
  have hmembers : ∀ key, a.members.lookup key = b.members.lookup key := by
    intro key
    rw [← lookup_sortMembers a.nodup_members, ← lookup_sortMembers b.nodup_members]
    rw [Json.obj.inj heq]
  have hflag : ∀ (node : Node) (key : String),
      (if node.exported then [("exported", Json.bool true)] else []).lookup key
        = if key = "exported" then (if node.exported then some (.bool true) else none)
          else none := by
    intro node key
    cases node.exported with
    | false => simp
    | true => exact lookup_single key "exported" (.bool true)
  have hstr : Function.Injective (Option.map Json.str) :=
    Option.map_injective fun _ _ h => Json.str.inj h
  simp only [members, List.lookup_append, lookup_textMember, hflag, lookup_single] at hmembers
  have hid : a.id = b.id := by simpa using hmembers "id"
  have hsemantic : a.semanticId = b.semanticId := hstr (by simpa using hmembers "semanticId")
  have htype : a.type = b.type := hstr (by simpa using hmembers "type")
  have hname : a.name = b.name := hstr (by simpa using hmembers "name")
  have hfile : a.file = b.file := hstr (by simpa using hmembers "file")
  have hmetadata : a.metadata = b.metadata := hstr (by simpa using hmembers "metadata")
  have hexported : a.exported = b.exported := by
    have hsame := hmembers "exported"
    cases ha : a.exported <;> cases hb : b.exported <;> simp [ha, hb] at hsame ⊢
  obtain ⟨id, semanticId, type, name, file, exported, metadata⟩ := a
  simp only at hid hsemantic htype hname hfile hmetadata hexported
  subst hid hsemantic htype hname hfile hmetadata hexported
  rfl

end Wire

/-! ### Messages -/

/-- A list of nodes is read node by node. -/
lemma readAs_nodes (depth : Nat) (nodes : List Wire.Node) :
    ReadAs (depth + 2) (.arr (nodes.map Wire.Node.toItem)) (.arr (nodes.map Wire.Node.json)) := by
  refine readAs_arr ?_
  rw [List.forall₂_map_left_iff, List.forall₂_map_right_iff, List.forall₂_same]
  exact fun node _ => node.readAs_json depth

open Client (Reply)

/-- A reply to a named request is received with that name and with what its fields are read
as. -/
theorem Response.ofBytes_encode {requestId : String} {response : Response}
    {members : List (String × Json)} (h : MembersReadAs (maxNesting - 1) response.fields members)
    (hfits : Framing.fits (response.encode (some requestId)).length) :
    Reply.ofBytes (response.encode (some requestId))
      = .ok ⟨sortMembers ((Reply.idKey, .str requestId) :: members)⟩ := by
  have hread : ReadAs maxNesting (response.toItem (some requestId))
      (.object ((Reply.idKey, .str requestId) :: members)) :=
    readAs_record (.cons (readAs_str requestId) h)
  have hlength : (response.toItem (some requestId)).write.length < Bytes.bound 4 :=
    lt_of_le_of_lt (of_decide_eq_true hfits) (by decide)
  rw [Reply.ofBytes, encode, hread.unpack_write hlength, object]

namespace Client

/-- A part of a long answer as it is received. -/
def Reply.ofPart (requestId : String) (part : List Wire.Node) (isLast : Bool)
    (index : UInt32) : Reply :=
  ⟨sortMembers [(idKey, .str requestId), ("nodes", .arr (part.map Wire.Node.json)),
    ("done", .bool isLast), ("chunkIndex", .int index.toNat)]⟩

namespace Reply

/-- What stands under a key, if the keys are all different. -/
lemma get?_sortMembers {members : List (String × Json)} (hkeys : (members.map Prod.fst).Nodup)
    (key : String) : get? ⟨sortMembers members⟩ key = members.lookup key :=
  lookup_sortMembers hkeys

variable {requestId : String}

lemma ofBytes_nodes {nodes : List Wire.Node}
    (hfits : Framing.fits ((Response.nodes nodes).encode (some requestId)).length) :
    ofBytes ((Response.nodes nodes).encode (some requestId))
      = .ok (ofNodes requestId (nodes.map Wire.Node.json)) :=
  Response.ofBytes_encode (.cons (readAs_nodes _ nodes) .nil) hfits

lemma ofBytes_nodesChunk {part : List Wire.Node} {isLast : Bool} {index : UInt32}
    (hfits : Framing.fits
      ((Response.nodesChunk part isLast index).encode (some requestId)).length) :
    ofBytes ((Response.nodesChunk part isLast index).encode (some requestId))
      = .ok (ofPart requestId part isLast index) := by
  have hindex : index.toNat < Bytes.bound 8 := lt_trans index.toNat_lt (by decide)
  refine Response.ofBytes_encode ?_ hfits
  exact .cons (readAs_nodes _ part) (.cons (readAs_bool isLast) (.cons (readAs_ofNat hindex) .nil))

/-- The name of the request and the nodes can be told from a whole answer, which is no part. -/
lemma get?_ofNodes (nodes : List Json) (key : String) :
    (ofNodes requestId nodes).get? key
      = [(idKey, .str requestId), ("nodes", .arr nodes)].lookup key :=
  get?_sortMembers (by simp only [List.map_cons, List.map_nil]; decide) key

lemma get?_ofPart (part : List Wire.Node) (isLast : Bool) (index : UInt32) (key : String) :
    (ofPart requestId part isLast index).get? key
      = [(idKey, .str requestId), ("nodes", .arr (part.map Wire.Node.json)),
        ("done", .bool isLast), ("chunkIndex", .int index.toNat)].lookup key :=
  get?_sortMembers (by simp only [List.map_cons, List.map_nil]; decide) key

@[simp] lemma requestId?_ofNodes (nodes : List Json) :
    (ofNodes requestId nodes).requestId? = some requestId := by
  rw [requestId?, text?, get?_ofNodes]
  rfl

@[simp] lemma nodes_ofNodes (nodes : List Json) : (ofNodes requestId nodes).nodes = nodes := by
  rw [Reply.nodes, get?_ofNodes]
  rfl

@[simp] lemma isChunk_ofNodes (nodes : List Json) :
    (ofNodes requestId nodes).isChunk = false := by
  rw [isChunk, get?_ofNodes]
  rfl

variable (part : List Wire.Node) (isLast : Bool) (index : UInt32)

@[simp] lemma requestId?_ofPart :
    (ofPart requestId part isLast index).requestId? = some requestId := by
  rw [requestId?, text?, get?_ofPart]
  rfl

@[simp] lemma nodes_ofPart :
    (ofPart requestId part isLast index).nodes = part.map Wire.Node.json := by
  rw [Reply.nodes, get?_ofPart]
  rfl

@[simp] lemma isChunk_ofPart : (ofPart requestId part isLast index).isChunk = true := by
  rw [isChunk, get?_ofPart, get?_ofPart]
  rfl

@[simp] lemma isLast_ofPart : (ofPart requestId part isLast index).isLast = isLast := by
  rw [Reply.isLast, get?_ofPart]
  rfl

end Reply

/-! ### Waiting for a reply -/

namespace Unix

variable {requestId : String} {nodes : List Json} {later : List Bytes}

/-- A whole answer ends the wait. -/
lemma receive_nodes {found : List Wire.Node}
    (hfits : Framing.fits ((Response.nodes found).encode (some requestId)).length) :
    receive requestId nodes ((Response.nodes found).encode (some requestId) :: later)
      = (.ok (.ofNodes requestId (found.map Wire.Node.json)), later) := by
  rw [receive, Reply.ofBytes_nodes hfits]
  simp [answers]

/-- A part is added to those before it; the last one ends the wait. -/
lemma receive_nodesChunk {part : List Wire.Node} {isLast : Bool} {index : UInt32}
    (hfits : Framing.fits
      ((Response.nodesChunk part isLast index).encode (some requestId)).length) :
    receive requestId nodes
        ((Response.nodesChunk part isLast index).encode (some requestId) :: later)
      = if isLast then (.ok (.ofNodes requestId (nodes ++ part.map Wire.Node.json)), later)
        else receive requestId (nodes ++ part.map Wire.Node.json) later := by
  rw [receive, Reply.ofBytes_nodesChunk hfits]
  simp [answers]

end Unix

end Client

end CodeGraph
