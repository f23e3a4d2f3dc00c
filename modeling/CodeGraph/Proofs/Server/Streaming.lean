import Mathlib
import CodeGraph.Proofs.Client.Reply
import CodeGraph.Proofs.Graph.Attributes
import CodeGraph.Proofs.Server.Databases
import CodeGraph.Server.Connection

/-!
# Long answers in parts

A server sends many nodes in parts to a client on the local socket that speaks the newest
version.  The nodes of a part are looked up when the part is made, but since everything that a
query finds is stored, the parts are exactly those into which the list of all nodes is cut
(`IsCut`): all are full but the last one, and none is empty.

The client puts the parts together again.  Whether it is served in parts or not, what it gets
is one reply with its own name for the request and with the nodes in the order in which the
query finds them (`Population.Reachable.streaming`).
-/

namespace CodeGraph

/-! ### Cutting lists -/

section Cutting

variable {α β : Type} {size : Nat} {list : List α} {parts : List (List α)}

/-- A list is cut into parts of a given size, the last of which may be smaller. -/
structure IsCut (size : Nat) (list : List α) (parts : List (List α)) : Prop where
  flatten : parts.flatten = list
  count : parts.length = list.length ⌈/⌉ size
  full : ∀ part ∈ parts.dropLast, part.length = size
  last : ∀ part ∈ parts.getLast?, 1 ≤ part.length ∧ part.length ≤ size

/-- One more part in front of those of the rest of a list. -/
lemma IsCut.cons (hsize : 0 < size) (hlist : list ≠ [])
    (h : IsCut size (list.drop size) parts) :
    IsCut size list (list.take size :: parts) := by
  have hpos : 0 < list.length := List.length_pos_iff.2 hlist
  have hcount := h.count
  rw [Nat.ceilDiv_eq_add_pred_div, List.length_drop] at hcount
  refine ⟨?_, ?_, ?_, ?_⟩
  · rw [List.flatten_cons, h.flatten, List.take_append_drop]
  · rw [List.length_cons, hcount, Nat.ceilDiv_eq_add_pred_div]
    rcases le_or_gt list.length size with hshort | hlong
    · have hnone : (list.length - size + size - 1) / size = 0 := Nat.div_eq_of_lt (by omega)
      have hone : (list.length + size - 1) / size = 1 := by
        rw [Nat.div_eq_iff hsize]
        omega
      rw [hnone, hone]
    · have hfirst : list.length + size - 1 = (list.length - size + size - 1) + size := by omega
      rw [hfirst, Nat.add_div_right _ hsize]
  · cases parts with
    | nil => simp
    | cons next parts =>
      -- Another part follows, so more is left than the first part takes.
      have hlong : size < list.length := by
        by_contra hshort
        have hempty : list.length - size + size - 1 < size := by omega
        rw [Nat.div_eq_of_lt hempty] at hcount
        simp at hcount
      intro part hpart
      rw [List.dropLast_cons_of_ne_nil (List.cons_ne_nil _ _)] at hpart
      obtain rfl | hpart := List.mem_cons.1 hpart
      · rw [List.length_take]
        omega
      · exact h.full part hpart
  · cases parts with
    | nil =>
      intro part hpart
      obtain rfl : list.take size = part := by simpa using hpart
      rw [List.length_take]
      omega
    | cons next parts =>
      rw [List.getLast?_cons_cons]
      exact h.last

/-- Cutting off one part after the other cuts a list. -/
theorem isCut_chunksOf (hsize : 0 < size) (list : List α) :
    IsCut size list (chunksOf size list) := by
  induction list using chunksOf.induct size with
  | case1 list hend =>
    obtain rfl : list = [] := hend.resolve_left hsize.ne'
    rw [chunksOf, dif_pos hend]
    exact ⟨rfl, by simp, by simp, by simp⟩
  | case2 list hend ih =>
    rw [chunksOf, dif_neg hend]
    exact ih.cons hsize fun hempty => hend (.inr hempty)

/-- A function that works on each part of a list and keeps its length keeps cuts. -/
lemma IsCut.map (h : IsCut size list parts) {f : List α → List β}
    (hflatten : (parts.map f).flatten = f parts.flatten)
    (hlength : ∀ part ⊆ list, (f part).length = part.length) :
    IsCut size (f list) (parts.map f) := by
  have hpart : ∀ part ∈ parts, (f part).length = part.length := by
    intro part hmem
    refine hlength part fun a ha => ?_
    rw [← h.flatten]
    exact List.mem_flatten_of_mem hmem ha
  refine ⟨?_, ?_, ?_, ?_⟩
  · rw [hflatten, h.flatten]
  · rw [List.length_map, h.count, hlength list (List.Subset.refl list)]
  · rw [← List.map_dropLast]
    intro image himage
    obtain ⟨part, hmem, rfl⟩ := List.mem_map.1 himage
    rw [hpart part (List.mem_of_mem_dropLast hmem)]
    exact h.full part hmem
  · rw [List.getLast?_map]
    intro image himage
    obtain ⟨part, hmem, rfl⟩ := Option.mem_map.1 himage
    rw [hpart part (List.mem_of_mem_getLast? hmem)]
    exact h.last part hmem

end Cutting

/-! ### Looking up parts -/

namespace Graph

variable {g : Graph}

lemma flatten_map_described (parts : List (List NodeId)) :
    (parts.map g.described).flatten = g.described parts.flatten := by
  induction parts with
  | nil => rfl
  | cons part parts ih =>
    rw [List.map_cons, List.flatten_cons, ih, List.flatten_cons]
    simp only [described, List.filterMap_append, List.map_append]

/-- As many nodes are described as identifiers are given, if all of them are stored. -/
lemma length_described {ids : List NodeId} (h : ∀ id ∈ ids, id ∈ g.nodes) :
    (g.described ids).length = ids.length := by
  induction ids with
  | nil => rfl
  | cons id ids ih =>
    have hid : id ∈ g.nodes := h id List.mem_cons_self
    have hnode : g.node? id = some g.nodes[id] := Std.ExtTreeMap.getElem?_eq_some_getElem hid
    have hothers := ih fun other hother => h other (List.mem_cons_of_mem id hother)
    simp only [described, List.length_map] at hothers ⊢
    rw [List.filterMap_cons_some hnode, List.length_cons, List.length_cons, hothers]

/-- Whatever a query finds is stored. -/
lemma Consistent.mem_nodes_of_mem_findByAttr (h : g.Consistent) {query : AttrQuery} {id : NodeId}
    (hid : id ∈ g.findByAttr query) : id ∈ g.nodes := by
  obtain ⟨node, hnode, -, -⟩ := h.mem_findByAttr.1 hid
  exact (Std.ExtTreeMap.getElem?_eq_some_iff.1 hnode).1

/-- Looking up part by part cuts the nodes that are found. -/
lemma Consistent.isCut_selected (h : g.Consistent) (query : Wire.Query) :
    IsCut chunkSize (g.selected query)
      ((chunksOf chunkSize (g.findByAttr (.ofWire query))).map g.described) := by
  refine (isCut_chunksOf (by decide) _).map (flatten_map_described _) fun part hpart => ?_
  exact length_described fun id hid => h.mem_nodes_of_mem_findByAttr (hpart hid)

end Graph

/-! ### Sending parts -/

/-- Parts are numbered from a number on, and only the last one is marked. -/
lemma chunkResponses_eq_mapIdx (index : UInt32) (parts : List (List Wire.Node)) :
    chunkResponses index parts = parts.mapIdx fun i part =>
      .nodesChunk part (i + 1 = parts.length) (index + .ofNat i) := by
  induction index, parts using chunkResponses.induct with
  | case1 index => rfl
  | case2 index part => simp [chunkResponses]
  | case3 index part parts hparts ih =>
    have hmore : parts.length ≠ 0 := fun hnone => hparts (List.length_eq_zero_iff.1 hnone)
    have hnumber : ∀ i : Nat, index + 1 + UInt32.ofNat i = index + UInt32.ofNat (i + 1) := by
      intro i
      rw [UInt32.ofNat_add, UInt32.add_assoc, UInt32.add_comm 1]
      rfl
    rw [chunkResponses, ih, List.mapIdx_cons]
    · simp [hnumber, hmore]
    · exact hparts

/-- The client puts the parts together again and leaves what comes later. -/
theorem Client.Unix.receive_chunkResponses {requestId : String} {parts : List (List Wire.Node)}
    (hparts : parts ≠ []) {index : UInt32}
    (hfits : ∀ frame ∈ (chunkResponses index parts).map (Response.encode (some requestId)),
      Framing.fits frame.length) (nodes : List Json) (later : List Bytes) :
    receive requestId nodes
        ((chunkResponses index parts).map (Response.encode (some requestId)) ++ later)
      = (.ok (.ofNodes requestId (nodes ++ parts.flatten.map Wire.Node.json)), later) := by
  induction index, parts using chunkResponses.induct generalizing nodes with
  | case1 index => exact absurd rfl hparts
  | case2 index part =>
    have hlast := hfits _ List.mem_cons_self
    rw [chunkResponses, List.map_singleton, List.singleton_append, receive_nodesChunk hlast]
    simp
  | case3 index part parts hmore ih =>
    rw [chunkResponses] at hfits ⊢
    · rw [List.map_cons, List.forall_mem_cons] at hfits
      rw [List.map_cons, List.cons_append, receive_nodesChunk hfits.1]
      have hrest := ih hmore hfits.2 (nodes ++ part.map Wire.Node.json)
      simp only [Bool.false_eq_true, if_false, hrest, List.flatten_cons, List.map_append,
        List.append_assoc]
    · exact hmore
    · exact hmore

namespace Session

/-- Answers of some size are sent in parts to the client of a session. -/
structure Streams (s : Session) (size : Nat) : Prop where
  transport : s.transport = .unix
  version : newestVersion ≤ s.version
  size : streamingThreshold < size

lemma streams_iff {s : Session} {size : Nat} : s.streams size ↔ s.Streams size := by
  have htransport : s.transport.streams ↔ s.transport = .unix := by
    cases s.transport <;> simp [Transport.streams]
  rw [streams, Bool.and_eq_true, Bool.and_eq_true, htransport, decide_eq_true_iff,
    decide_eq_true_iff]
  exact ⟨fun ⟨⟨htransport, hversion⟩, hsize⟩ => ⟨htransport, hversion, hsize⟩,
    fun h => ⟨⟨h.transport, h.version⟩, h.size⟩⟩

end Session

/-! ### Queries -/

/-- A query for nodes is answered by all nodes that it selects, in parts if they are streamed. -/
lemma Graph.Consistent.queryNodes_eq {g : Graph} (h : g.Consistent) (s : Session)
    (query : Wire.Query) :
    s.queryNodes g query = if s.streams (g.selected query).length then
      .chunked (chunkResponses 0
        ((chunksOf chunkSize (g.findByAttr (.ofWire query))).map g.described))
      else .single (.nodes (g.selected query)) := by
  have hlength : (g.selected query).length = (g.findByAttr (.ofWire query)).length :=
    Graph.length_described fun id hid => h.mem_nodes_of_mem_findByAttr hid
  rw [Session.queryNodes, hlength]
  rfl

namespace Population

/-- In every reachable population, a query for nodes is answered in parts exactly if the
session streams that many nodes: the parts are those into which the list of all nodes is cut,
numbered from 0 with words of 32 bits, only the last one being marked.  Otherwise the same list
is sent as a whole.  Either way, if no frame is too large the client that sent the query gets one
reply, with its own name for the request and with this list, and what comes after the frames is
left. -/
theorem Reachable.streaming {p : Population} (h : Reachable p) {conn : Connection} {db : Database}
    (hdb : conn.session.database? p.server.catalog = some db) {client : Client.Unix}
    {query : Wire.Query} {message : Bytes}
    (hmessage : Envelope.decode message = .ok (client.send (.queryNodes query)).1)
    (r : Readings) :
    let requestId := Client.requestName client.nextId
    let nodes := db.graph.selected query
    let reply := (p.server.dispatch conn.session r (.queryNodes query)).1
    let frames := (conn.handle p.server r message).1.frames
    frames = reply.responses.map (Response.encode (some requestId)) ∧
    (conn.session.Streams nodes.length → ∃ parts, IsCut chunkSize nodes parts ∧
      reply = .chunked (parts.mapIdx fun i part =>
        .nodesChunk part (i + 1 = parts.length) (.ofNat i))) ∧
    (∀ other : Session, other.database? p.server.catalog = some db →
      ¬other.Streams nodes.length →
      (p.server.dispatch other r (.queryNodes query)).1 = .single (.nodes nodes)) ∧
    ((∀ frame ∈ frames, Framing.fits frame.length) → ∀ later,
      Client.Unix.receive requestId [] (frames ++ later)
        = (.ok (.ofNodes requestId (nodes.map Wire.Node.json)), later)) := by
  intro requestId nodes reply frames
  obtain ⟨handle, -, hhandle⟩ := Option.bind_eq_some_iff.1 hdb
  have hgraph : db.graph.Consistent := (h.graph_reachable hhandle).consistent
  have hreply : ∀ other : Session, other.database? p.server.catalog = some db →
      (p.server.dispatch other r (.queryNodes query)).1 = other.queryNodes db.graph query := by
    intro other hother
    simp only [Server.dispatch, hother]
  have hframes : frames = reply.responses.map (Response.encode (some requestId)) := by
    simp only [frames, Connection.handle, hmessage]
    rfl
  have hcut := hgraph.isCut_selected query
  set parts := (chunksOf chunkSize (db.graph.findByAttr (.ofWire query))).map db.graph.described
  have hsingle : ∀ other : Session, other.database? p.server.catalog = some db →
      ¬other.Streams nodes.length →
      (p.server.dispatch other r (.queryNodes query)).1 = .single (.nodes nodes) := by
    intro other hother hstreams
    rw [hreply other hother, hgraph.queryNodes_eq, if_neg (mt Session.streams_iff.1 hstreams)]
  have hchunked : conn.session.Streams nodes.length →
      reply = .chunked (chunkResponses 0 parts) := by
    intro hstreams
    have hanswer : reply = conn.session.queryNodes db.graph query := hreply conn.session hdb
    rw [hanswer, hgraph.queryNodes_eq, if_pos (Session.streams_iff.2 hstreams)]
  refine ⟨hframes, fun hstreams => ⟨parts, hcut, ?_⟩, hsingle, fun hfits later => ?_⟩
  · rw [hchunked hstreams, chunkResponses_eq_mapIdx]
    simp only [UInt32.zero_add]
  · by_cases hstreams : conn.session.Streams nodes.length
    · rw [hframes, hchunked hstreams] at hfits ⊢
      have hparts : parts ≠ [] := by
        intro hnone
        have hempty : nodes = [] := hcut.flatten.symm.trans (by rw [hnone, List.flatten_nil])
        have hmany := hstreams.size
        rw [hempty] at hmany
        exact Nat.not_lt_zero _ hmany
      have hreceive := Client.Unix.receive_chunkResponses hparts hfits [] later
      rw [hcut.flatten] at hreceive
      exact hreceive
    · have hwhole : reply = .single (.nodes nodes) := hsingle conn.session hdb hstreams
      rw [hframes, hwhole] at hfits ⊢
      exact Client.Unix.receive_nodes (hfits _ List.mem_cons_self)

/-! ### A query for many nodes -/

/-- A query that all nodes answer. -/
def everything : Wire.Query := ⟨none, none, none, none, ∅⟩

/-- A client that speaks the newest version adds a few more nodes than are sent as a whole. -/
def crowding : List Event :=
  [.accept .unix, .request 0 atStart (.hello (some 3) none),
    .request 0 atStart (.createDatabase "crowd" true),
    .request 0 atStart (.openDatabase "crowd" "rw"),
    .request 0 atStart (.addNodes ((List.range 101).map fun i =>
      ⟨toString i, none, some "call", none, none, false, none⟩))]

/-- The population after these events. -/
def crowded : Population := crowding.foldl step fresh

/-- The first message of a client that asks for all nodes. -/
def askForAll : Bytes := (Client.Unix.start.send (.queryNodes everything)).1.encode

/-- Whether what was read of a message is this request. -/
def asksForAll : Except Pack.Fault Envelope → Bool
  | .ok ⟨some requestId, .queryNodes query⟩ => requestId == "c1" && query.type.isNone &&
      query.name.isNone && query.file.isNone && query.exported.isNone && query.extra.isEmpty
  | _ => false

lemma eq_of_asksForAll {found : Except Pack.Fault Envelope} (h : asksForAll found) :
    found = .ok (Client.Unix.start.send (.queryNodes everything)).1 := by
  unfold asksForAll at h
  split at h
  · next requestId query =>
    obtain ⟨type, name, file, exported, extra⟩ := query
    simp only [Bool.and_eq_true, beq_iff_eq, Option.isNone_iff_eq_none,
      Std.ExtTreeMap.isEmpty_iff] at h
    obtain ⟨⟨⟨⟨⟨rfl, rfl⟩, rfl⟩, rfl⟩, rfl⟩, rfl⟩ := h
    rfl
  · cases h

theorem streaming_crowded : Reachable crowded ∧
    Envelope.decode askForAll = .ok (Client.Unix.start.send (.queryNodes everything)).1 ∧
    ∃ conn db, crowded.connections[0]? = some conn ∧
      conn.session.database? crowded.server.catalog = some db ∧
      (db.graph.selected everything).length = 101 ∧
      (crowded.server.dispatch conn.session atStart (.queryNodes everything)).1
        = .chunked [.nodesChunk (db.graph.selected everything) true 0] ∧
      Client.Unix.receive "c1" [] (conn.handle crowded.server atStart askForAll).1.frames
        = (.ok (.ofNodes "c1" ((db.graph.selected everything).map Wire.Node.json)), []) := by
  have hreach : Reachable crowded := (Reachable.start rfl).steps crowding
  have hdecode : Envelope.decode askForAll
      = .ok (Client.Unix.start.send (.queryNodes everything)).1 :=
    eq_of_asksForAll (by decide +kernel)
  have hrun : crowded.connections[0]?.map (fun conn => (conn.session.transport,
      conn.session.version, (conn.session.database? crowded.server.catalog).map fun db =>
        (db.graph.selected everything).length,
      (conn.handle crowded.server atStart askForAll).1.frames.all
        fun frame => Framing.fits frame.length)) = some (.unix, 3, some 101, true) := by
    decide +kernel
  obtain ⟨conn, hconn, hfacts⟩ := Option.map_eq_some_iff.1 hrun
  obtain ⟨htransport, hversion, hsize, hfits⟩ :
      conn.session.transport = .unix ∧ conn.session.version = 3 ∧
        (conn.session.database? crowded.server.catalog).map
          (fun db => (db.graph.selected everything).length) = some 101 ∧
        (conn.handle crowded.server atStart askForAll).1.frames.all
          (fun frame => Framing.fits frame.length) = true := by
    simpa only [Prod.mk.injEq] using hfacts
  obtain ⟨db, hdb, hcount⟩ := Option.map_eq_some_iff.1 hsize
  obtain ⟨-, hparts, -, hreceive⟩ := hreach.streaming hdb hdecode atStart
  have hstreams : conn.session.Streams (db.graph.selected everything).length :=
    ⟨htransport, by rw [hversion]; decide, by rw [hcount]; decide⟩
  obtain ⟨parts, hcut, hreply⟩ := hparts hstreams
  have hone : parts.length = 1 := by
    rw [hcut.count, hcount]
    decide
  obtain ⟨part, rfl⟩ := List.length_eq_one_iff.1 hone
  have hpart : part = db.graph.selected everything := by
    rw [← hcut.flatten, List.flatten_singleton]
  rw [hpart] at hreply
  have hall := hreceive (fun frame hframe => List.all_eq_true.1 hfits frame hframe) []
  rw [List.append_nil] at hall
  exact ⟨hreach, hdecode, conn, db, hconn, hdb, hcount, hreply, hall⟩

end Population

end CodeGraph
