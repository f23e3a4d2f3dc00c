import Mathlib
import CodeGraph.Proofs.Pack.Json
import CodeGraph.Proofs.Pack.Value
import CodeGraph.Proofs.Graph.Batch
import CodeGraph.Proofs.Server.Isolation
import CodeGraph.Proofs.Server.Databases

/-!
# Setting the version of a node

The version of a node is a member of its metadata.  To set it, a server reads the metadata, puts
the member in, and adds the node once more, which takes the place of the old one.

* A node that has got a version differs from the old one in its metadata only, and the metadata
  in the version only (`Node.Versioned`).
* A graph in which a node has taken the place of one with the same type and in the same file is
  as it was, but for this node and the values under which it is found (`Graph.Replaced`).

Together they say what the request does (`Population.Reachable.updateNodeVersion_exact`).  Whether
numbers survive being printed is left open: it is assumed that the new metadata is read as it was
meant (`Json.ReadsBack`).
-/

namespace CodeGraph

open Std (ExtTreeMap LawfulEqCmp)

namespace Json

/-! ### Putting a member in -/

/-- The text of a value is read as the value. -/
def ReadsBack (value : Json) : Prop :=
  parse? value.text = some value

lemma ofList_concat (members : List (String × Json)) (key : String) (value : Json) :
    ExtTreeMap.ofList (members ++ [(key, value)])
      = (ExtTreeMap.ofList members).insert key value := by
  simp only [ExtTreeMap.ofList_eq_foldl, List.foldl_append, List.foldl_cons, List.foldl_nil]

/-- A member that is put behind others is found under its key, and the others under theirs. -/
lemma lookup_sortMembers_concat (members : List (String × Json)) (key : String) (value : Json)
    (other : String) : (sortMembers (members ++ [(key, value)])).lookup other =
      if other = key then some value else (sortMembers members).lookup other := by
  rw [sortMembers, sortMembers, lookup_toList, lookup_toList, ofList_concat,
    ExtTreeMap.getElem?_insert]
  simp only [LawfulEqCmp.compare_eq_iff_eq, eq_comm (a := other)]

/-- A member that is put in twice is there once. -/
lemma sortMembers_concat_twice (members : List (String × Json)) (key : String) (value : Json) :
    sortMembers (sortMembers (members ++ [(key, value)]) ++ [(key, value)])
      = sortMembers (members ++ [(key, value)]) := by
  have hinsert : ((ExtTreeMap.ofList members).insert key value).insert key value
      = (ExtTreeMap.ofList members).insert key value := by
    apply ExtTreeMap.ext_getElem?
    intro other
    simp only [ExtTreeMap.getElem?_insert]
    split <;> rfl
  simp only [sortMembers, ofList_concat, map_ofList_toList, hinsert]

/-! ### Objects that were read -/

lemma number?_ne_obj (negative : Bool) (integer : List Nat) (fraction : Option (List Nat))
    (exponent : Option Int) (members : List (String × Json)) :
    number? negative integer fraction exponent ≠ some (.obj members) := by
  intro h
  unfold number? at h
  dsimp only at h
  split at h
  · split at h
    · simp at h
    · split at h
      · simp at h
      · split at h <;> simp at h
  · simp at h

lemma readNumber_ne_obj (cs rest : List Char) (members : List (String × Json)) :
    readNumber cs ≠ some (.obj members, rest) := by
  intro h
  unfold readNumber at h
  simp only [Option.bind_eq_bind, Option.bind_eq_some_iff, Option.pure_def, Option.some.injEq] at h
  obtain ⟨⟨integer, _⟩, -, ⟨fraction, _⟩, -, ⟨exponent, _⟩, -, value, hvalue, heq⟩ := h
  obtain ⟨rfl, -⟩ := Prod.mk.inj heq
  exact number?_ne_obj _ _ _ _ _ hvalue

/-- The members of an object are sorted when it has been read. -/
lemma sortMembers_of_readValue {limit depth : Nat} {cs rest : List Char}
    {members : List (String × Json)} (h : readValue limit depth cs = some (.obj members, rest)) :
    sortMembers members = members := by
  unfold readValue at h
  split at h
  case h_8 =>
    -- Behind an opening brace, members are sorted once all of them have been read.
    split at h
    · obtain ⟨hmembers, -⟩ := Prod.mk.inj (Option.some.inj h)
      obtain rfl := Json.obj.inj hmembers
      rfl
    · obtain ⟨⟨unsorted, _⟩, -, heq⟩ := Option.map_eq_some_iff.1 h
      obtain ⟨hmembers, -⟩ := Prod.mk.inj heq
      rw [← Json.obj.inj hmembers, sortMembers_sortMembers]
  case h_9 =>
    -- Whatever begins otherwise is read as a number.
    exact absurd h (readNumber_ne_obj _ _ _)
  case h_7 => split at h <;> simp at h
  all_goals simp at h

lemma sortMembers_of_parse? {text : String} {members : List (String × Json)}
    (h : parse? text = some (.obj members)) : sortMembers members = members := by
  unfold parse? at h
  dsimp only at h
  split at h
  · next value rest hread =>
    split at h
    · obtain rfl := Option.some.inj h
      exact sortMembers_of_readValue hread
    · simp at h
  · simp at h

end Json

/-! ### The node -/

/-- A node that has got a version and is otherwise as it was: its metadata is an object, which has
the version and beside it what the old metadata had, if that was an object. -/
structure Node.Versioned (node node' : Node) (version : String) : Prop where
  others : node' = { node with metadata := node'.metadata }
  metadata : ∃ members, node'.metadata? = some (.obj members) ∧ IncreasingBy Prod.fst members ∧
    ∀ key, members.lookup key =
      if key = "version" then some (.str version) else node.metadata?.bind (Json.member? key)

namespace Graph

/-- What the metadata of a node becomes when it gets a version. -/
def versionedMetadata (node : Node) (version : String) : Json :=
  .object (metadataMembers node ++ [("version", .str version)])

lemma sortMembers_metadataMembers (node : Node) :
    Json.sortMembers (metadataMembers node) = metadataMembers node := by
  unfold metadataMembers
  split
  · next members hmetadata =>
    obtain ⟨text, -, hparse⟩ := Option.bind_eq_some_iff.1 hmetadata
    exact Json.sortMembers_of_parse? hparse
  · rfl

/-- What is not an object has no members. -/
lemma lookup_metadataMembers (node : Node) (key : String) :
    (metadataMembers node).lookup key = node.metadata?.bind (Json.member? key) := by
  unfold metadataMembers
  cases node.metadata? with
  | none => rfl
  | some value => cases value <;> rfl

variable {node : Node} {version : String}

lemma metadata?_withVersion (hback : (versionedMetadata node version).ReadsBack) :
    (withVersion node version).metadata? = some (versionedMetadata node version) :=
  hback

lemma versioned_withVersion (hback : (versionedMetadata node version).ReadsBack) :
    node.Versioned (withVersion node version) version where
  others := rfl
  metadata := by
    refine ⟨_, metadata?_withVersion hback, increasing_entries _, fun key => ?_⟩
    rw [Json.lookup_sortMembers_concat, sortMembers_metadataMembers, lookup_metadataMembers]

/-- A node that gets the version that it has stays as it is. -/
lemma withVersion_withVersion (hback : (versionedMetadata node version).ReadsBack) :
    withVersion (withVersion node version) version = withVersion node version := by
  have hmembers : metadataMembers (withVersion node version)
      = Json.sortMembers (metadataMembers node ++ [("version", .str version)]) := by
    rw [metadataMembers, metadata?_withVersion hback]
    rfl
  have hmetadata : versionedMetadata (withVersion node version) version
      = versionedMetadata node version := by
    rw [versionedMetadata, hmembers, Json.object, Json.sortMembers_concat_twice]
    rfl
  change { node with metadata := some (versionedMetadata (withVersion node version) version).text }
    = withVersion node version
  rw [hmetadata]
  rfl

/-! ### The graph -/

/-- A graph in which a node has taken the place of the one with its identifier.  Of the indexes,
only that of the declared fields is another one: it lists the node under its new values and under
no others. -/
structure Replaced (g g' : Graph) (node : Node) : Prop where
  others : g' = { g with nodes := g'.nodes, index := g'.index, unflushed := g.unflushed + 1 }
  nodes : ∀ id, g'.nodes[id]? = if id = node.id then some node else g.nodes[id]?
  described : Index.Describes g.fields g'.index g'.toContents
  byType : g'.index.byType = g.index.byType
  byFile : g'.index.byFile = g.index.byFile
  outgoing : g'.index.outgoing = g.index.outgoing
  incoming : g'.index.incoming = g.index.incoming
  byField : ∀ field value id, id ∈ g'.index.withValue field value ↔
    if id = node.id then (field, value) ∈ node.declaredValues g.fields
    else id ∈ g.index.withValue field value

variable {g : Graph} {old : Node}

/-- The edges of a graph and their indexes do not change when a node is added. -/
lemma addNode_index_edges (g : Graph) (node : Node) :
    (g.addNode node).index.outgoing = g.index.outgoing ∧
      (g.addNode node).index.incoming = g.index.incoming := by
  unfold addNode
  cases g.nodes[node.id]? with
  | none => exact ⟨rfl, rfl⟩
  | some old => exact ⟨rfl, rfl⟩

lemma getElem?_addNode (g : Graph) (node : Node) (id : NodeId) :
    (g.addNode node).nodes[id]? = if id = node.id then some node else g.nodes[id]? := by
  change (g.nodes.insert node.id node)[id]? = _
  rw [ExtTreeMap.getElem?_insert]
  simp only [LawfulEqCmp.compare_eq_iff_eq, eq_comm (a := id)]

/-- A node takes the place of one with the same type and in the same file. -/
lemma Consistent.replaced_addNode (h : g.Consistent) (hold : g.nodes[node.id]? = some old)
    (htype : node.type = old.type) (hfile : node.file = old.file) :
    Replaced g (g.addNode node) node := by
  have hdescribed :
      Index.Describes g.fields (g.addNode node).index (g.addNode node).toContents := by
    have hid : old.id = node.id := h.keyed.node hold
    have hreplaced := h.described.replaceNode (hid.symm ▸ hold) hid
    unfold Graph.addNode
    rwa [hold]
  -- Whoever has a type or is in a file did so before.
  have hsame : ∀ (p : Node → Prop), (p node ↔ p old) → ∀ id : NodeId,
      (∃ n, (g.addNode node).nodes[id]? = some n ∧ p n) ↔ ∃ n, g.nodes[id]? = some n ∧ p n := by
    intro p hp id
    rw [getElem?_addNode]
    split
    · next hid => simp [hid, hold, hp]
    · rfl
  refine ⟨rfl, getElem?_addNode g node, hdescribed, ?_, ?_, (addNode_index_edges g node).1,
    (addNode_index_edges g node).2, fun field value id => ?_⟩
  · refine hdescribed.tidyTypes.ext h.described.tidyTypes fun type id => ?_
    rw [hdescribed.byType, h.described.byType]
    exact hsame (·.type = some type) (by rw [htype]) id
  · refine hdescribed.tidyFiles.ext h.described.tidyFiles fun file id => ?_
    rw [hdescribed.byFile, h.described.byFile]
    exact hsame (·.file = some file) (by rw [hfile]) id
  · rw [hdescribed.byField, getElem?_addNode]
    split
    · simp
    · rw [h.described.byField]

lemma Reachable.addNode (h : Reachable g) (node : Node) : Reachable (g.addNode node) :=
  h.step (.addNodes [node])

/-- To add a node that is there changes nothing but the count of changes. -/
lemma Reachable.addNode_stored (h : Reachable g) (hnode : g.nodes[node.id]? = some node) :
    g.addNode node = { g with unflushed := g.unflushed + 1 } := by
  have hnodes : (g.addNode node).nodes = g.nodes := by
    apply ExtTreeMap.ext_getElem?
    intro id
    rw [getElem?_addNode]
    split
    · next hid => rw [hid, hnode]
    · rfl
  have hcontents : (g.addNode node).toContents = g.toContents :=
    congrArg (Contents.mk · g.edges) hnodes
  have hindex : (g.addNode node).index = g.index := by
    refine h.index_unique (h.addNode node) rfl hcontents fun field => ?_
    rw [mem_byField_addNode, or_iff_right_iff_imp]
    rintro ⟨value, hvalue⟩
    have hlisted : node.id ∈ g.index.withValue field value :=
      (h.consistent.described.byField field value node.id).2 ⟨node, hnode, hvalue⟩
    by_contra hunknown
    simp [Index.withValue, ExtTreeMap.getElem?_eq_none hunknown, Multimap.values] at hlisted
  change { g with
    nodes := (g.addNode node).nodes
    index := (g.addNode node).index
    unflushed := g.unflushed + 1 } = _
  rw [hnodes, hindex]

/-! ### The request on a graph -/

section Request

variable {id : String}

lemma updateVersion_of_eq_some (hnode : g.nodes[NodeId.parse id]? = some node) (disk : Disk)
    (version : String) :
    g.updateVersion disk id version = .done .ok (g.addNode (withVersion node version)) disk := by
  unfold updateVersion node?
  rw [hnode]

lemma updateVersion_of_eq_none (hnone : g.nodes[NodeId.parse id]? = none) (disk : Disk)
    (version : String) : g.updateVersion disk id version =
      .done (.failed s!"Node not found: {id}. Add it with addNodes first") g disk := by
  unfold updateVersion node?
  rw [hnone]

lemma Reachable.replaced_withVersion (h : Reachable g)
    (hnode : g.nodes[NodeId.parse id]? = some node) (version : String) :
    Replaced g (g.addNode (withVersion node version)) (withVersion node version) := by
  have hid : node.id = NodeId.parse id := h.consistent.keyed.node hnode
  have hstored : g.nodes[(withVersion node version).id]? = some node := by
    change g.nodes[node.id]? = some node
    rw [hid, hnode]
  exact h.consistent.replaced_addNode hstored rfl rfl

/-- To set the version once more adds the node that is there. -/
lemma Reachable.updateVersion_twice (h : Reachable g)
    (hnode : g.nodes[NodeId.parse id]? = some node)
    (hback : (versionedMetadata node version).ReadsBack) (disk : Disk) :
    ((g.addNode (withVersion node version)).updateVersion disk id version).graph =
      { g.addNode (withVersion node version) with
        unflushed := (g.addNode (withVersion node version)).unflushed + 1 } := by
  have hid : node.id = NodeId.parse id := h.consistent.keyed.node hnode
  have hthere : (g.addNode (withVersion node version)).nodes[node.id]?
      = some (withVersion node version) :=
    (getElem?_addNode g _ node.id).trans (if_pos rfl)
  rw [updateVersion_of_eq_some (hid ▸ hthere), withVersion_withVersion hback]
  exact (h.addNode _).addNode_stored hthere

end Request

end Graph

/-! ### The server -/

namespace Population

/-- A population in which the graph of a database has become another one. -/
def withGraph (p : Population) (handle : Handle) (graph : Graph) : Population :=
  { p with
    server := p.server.withCatalog
      (p.server.catalog.modify handle fun db => { db with graph := graph }) }

variable {p : Population} {client : Nat} {conn : Connection} {handle : Handle} {db : Database}

lemma database?_withGraph (hdb : p.server.catalog.database? handle = some db) (graph : Graph) :
    (p.withGraph handle graph).server.catalog.database? handle
      = some { db with graph := graph } := by
  change (p.server.catalog.modify handle _).database? handle = _
  rw [Catalog.database?_modify, if_pos rfl, hdb]
  rfl

lemma withGraph_self (hdb : p.server.catalog.database? handle = some db) :
    p.withGraph handle db.graph = p := by
  have hdatabases : p.server.catalog.databases.modify handle
      (fun other => { other with graph := db.graph }) = p.server.catalog.databases := by
    apply ExtTreeMap.ext_getElem?
    intro other
    rw [ExtTreeMap.getElem?_modify]
    split
    · next heq =>
      obtain rfl := LawfulEqCmp.eq_of_compare heq
      change (p.server.catalog.database? handle).map _ = p.server.catalog.database? handle
      rw [hdb]
      rfl
    · rfl
  unfold withGraph Catalog.modify
  rw [hdatabases]
  rfl

/-- The request to set a version changes the open graph and nothing else. -/
lemma step_updateNodeVersion (hconn : p.connections[client]? = some conn)
    (hcurrent : conn.session.current = some handle) (hmode : conn.session.mode = .readWrite)
    (hdb : p.server.catalog.database? handle = some db) (r : Readings) (id version : String) :
    (p.server.dispatch conn.session r (.updateNodeVersion id version)).1
        = .single (db.graph.updateVersion p.server.catalog.disk id version).response ∧
      p.step (.request client r (.updateNodeVersion id version))
        = p.withGraph handle (db.graph.updateVersion p.server.catalog.disk id version).graph := by
  have hdisk : (db.graph.updateVersion p.server.catalog.disk id version).disk
      = p.server.catalog.disk := by
    unfold Graph.updateVersion
    split <;> rfl
  have hafter : ∀ (server : Server) (response : Response), server.afterChange conn.session r
      (.updateNodeVersion id version) response = (server, conn.session) := by
    intro server response
    unfold Server.afterChange
    split <;> rfl
  have hdispatch : p.server.dispatch conn.session r (.updateNodeVersion id version)
      = (.single (db.graph.updateVersion p.server.catalog.disk id version).response,
        (p.withGraph handle
          (db.graph.updateVersion p.server.catalog.disk id version).graph).server,
        conn.session) := by
    simp only [Server.dispatch, Server.respond, Request.question?, Request.change?,
      Server.change_of_readWrite hmode hcurrent hdb, hafter, hdisk]
    rfl
  have hconnections : p.connections.set client conn = p.connections := by
    obtain ⟨hclient, rfl⟩ := List.getElem?_eq_some_iff.1 hconn
    exact List.set_getElem_self hclient
  rw [step_request hconn, hdispatch]
  refine ⟨rfl, ?_⟩
  change Population.mk _ (p.connections.set client conn) = _
  rw [hconnections]
  rfl

/-- In every reachable population, setting the version of a node in a database that is open for
changes touches its metadata only, which becomes an object with the version and with all that the
old metadata had beside it.  In the graph nothing else is another one but the index of the declared
fields, which lists the node under its new values only, and in the population nothing else at all;
to ask once more changes no more than the count of changes.  For a node that is not there an error
is returned, and nothing changes. -/
theorem Reachable.updateNodeVersion_exact (h : Reachable p)
    (hconn : p.connections[client]? = some conn) (hcurrent : conn.session.current = some handle)
    (hmode : conn.session.mode = .readWrite)
    (hdb : p.server.catalog.database? handle = some db) (r r' : Readings) (id version : String) :
    let request := Request.updateNodeVersion id version
    let p' := p.step (.request client r request)
    (∀ node, db.graph.nodes[NodeId.parse id]? = some node →
      (Graph.versionedMetadata node version).ReadsBack →
      (p.server.dispatch conn.session r request).1 = .single .ok ∧
      ∃ node' graph, p' = p.withGraph handle graph ∧
        p'.server.catalog.database? handle = some { db with graph := graph } ∧
        node.Versioned node' version ∧ db.graph.Replaced graph node' ∧
        p'.step (.request client r' request)
          = p'.withGraph handle { graph with unflushed := graph.unflushed + 1 }) ∧
    (db.graph.nodes[NodeId.parse id]? = none →
      (p.server.dispatch conn.session r request).1
        = .single (.failed s!"Node not found: {id}. Add it with addNodes first") ∧
      p' = p) := by
  intro request p'
  have hgraph : db.graph.Reachable := h.graph_reachable hdb
  obtain ⟨hreply, hstep⟩ := step_updateNodeVersion hconn hcurrent hmode hdb r id version
  refine ⟨fun node hnode hback => ?_, fun hnone => ?_⟩
  · rw [Graph.updateVersion_of_eq_some hnode] at hreply hstep
    set graph := db.graph.addNode (Graph.withVersion node version) with hadded
    have hp' : p' = p.withGraph handle graph := hstep
    have hconn' : p'.connections[client]? = some conn := by
      rw [hp']
      exact hconn
    have hdb' : p'.server.catalog.database? handle = some { db with graph := graph } := by
      rw [hp']
      exact database?_withGraph hdb graph
    obtain ⟨-, hagain⟩ := step_updateNodeVersion hconn' hcurrent hmode hdb' r' id version
    refine ⟨hreply, Graph.withVersion node version, graph, hp', hdb',
      Graph.versioned_withVersion hback, hgraph.replaced_withVersion hnode version, ?_⟩
    rw [hagain]
    exact congrArg (p'.withGraph handle) (hgraph.updateVersion_twice hnode hback _)
  · rw [Graph.updateVersion_of_eq_none hnone] at hreply hstep
    exact ⟨hreply, hstep.trans (withGraph_self hdb)⟩

/-- A client declares the field `version` and stores two calls, one of them in its first version. -/
def versioning : List Event :=
  [.accept .unix,
    .request 0 atStart (.createDatabase "calls" true),
    .request 0 atStart (.openDatabase "calls" "rw"),
    .request 0 atStart (.declareFields [⟨"version", none, none⟩]),
    .request 0 atStart (.addNodes [⟨"1", none, some "call", none, none, false,
      some "\x7b\"method\":\"GET\",\"version\":\"1\"\x7d"⟩,
      ⟨"2", none, some "call", none, none, false, none⟩]),
    .request 0 atStart (.addEdges [⟨"1", "2", some "calls", none⟩] false)]

/-- The population after these events. -/
def versioned : Population := versioning.foldl step fresh

lemma versioned_reachable : Reachable versioned :=
  (Reachable.start rfl).steps versioning

/-- The call in its first version. -/
def firstCall : Node where
  id := .ofNat 1
  type := some "call"
  name := none
  file := none
  exported := false
  metadata := some "\x7b\"method\":\"GET\",\"version\":\"1\"\x7d"
  semanticId := none

/-- The call gets its second version and is found by it, but no longer by the first one; there is
no third call. -/
theorem updateNodeVersion_exact_versioned : Reachable versioned ∧
    ∃ (conn : Connection) (db : Database), versioned.connections[0]? = some conn ∧
      conn.session.current = some 0 ∧ conn.session.mode = .readWrite ∧
      versioned.server.catalog.database? 0 = some db ∧
      db.graph.nodes[NodeId.parse "1"]? = some firstCall ∧
      (Graph.versionedMetadata firstCall "2").ReadsBack ∧
      .ofNat 1 ∈ db.graph.index.withValue "version" "1" ∧
      (∃ node' graph, firstCall.Versioned node' "2" ∧
        versioned.step (.request 0 atStart (.updateNodeVersion "1" "2"))
          = versioned.withGraph 0 graph ∧
        .ofNat 1 ∈ graph.index.withValue "version" "2" ∧
        .ofNat 1 ∉ graph.index.withValue "version" "1") ∧
      db.graph.nodes[NodeId.parse "3"]? = none ∧
      versioned.step (.request 0 atStart (.updateNodeVersion "3" "2")) = versioned := by
  have hrun : (versioned.server.catalog.database? 0).map (fun db =>
      (db.graph.nodes[NodeId.parse "1"]?, db.graph.nodes[NodeId.parse "3"]?, db.graph.fields,
        (db.graph.index.withValue "version" "1").contains (.ofNat 1)))
      = some (some firstCall, none, [⟨"version", .text, none⟩], true) := by
    decide +kernel
  obtain ⟨db, hdb, hgraph⟩ := Option.map_eq_some_iff.1 hrun
  obtain ⟨hnode, hnone, hfields, hfirst⟩ : _ ∧ _ ∧ _ ∧ _ := by
    simpa only [Prod.mk.injEq] using hgraph
  obtain ⟨conn, hconn, hcurrent, hmode⟩ :=
    exists_session versioned 0 (some 0) .readWrite (by decide +kernel)
  have hback : (Graph.versionedMetadata firstCall "2").ReadsBack := by
    change Json.parse? (Graph.versionedMetadata firstCall "2").text = _
    cbv
  obtain ⟨hset, -⟩ := versioned_reachable.updateNodeVersion_exact hconn hcurrent hmode hdb
    atStart atStart "1" "2"
  obtain ⟨-, hunknown⟩ := versioned_reachable.updateNodeVersion_exact hconn hcurrent hmode hdb
    atStart atStart "3" "2"
  obtain ⟨-, node', graph, hstep, -, hversioned, hreplaced, -⟩ := hset firstCall hnode hback
  obtain ⟨members, hmetadata, -, hmembers⟩ := hversioned.metadata
  have hvalue : ∀ value, .ofNat 1 ∈ graph.index.withValue "version" value ↔ value = "2" := by
    intro value
    have hid : NodeId.ofNat 1 = node'.id := by
      rw [hversioned.others]
      rfl
    have hlookup : (Json.obj members).member? "version" = some (.str "2") := hmembers "version"
    rw [hreplaced.byField, if_pos hid, Index.mem_declaredValues, hfields, hmetadata]
    simp [FieldDecl.covers, metadataValue?, hlookup, Json.scalarText?, eq_comm (a := value)]
  exact ⟨versioned_reachable, conn, db, hconn, hcurrent, hmode, hdb, hnode, hback,
    Std.ExtTreeSet.contains_iff_mem.1 hfirst,
    ⟨node', graph, hversioned, hstep, (hvalue "2").2 rfl, fun hold => absurd ((hvalue "1").1 hold)
      (by decide)⟩, hnone, (hunknown hnone).2⟩

end Population

end CodeGraph
