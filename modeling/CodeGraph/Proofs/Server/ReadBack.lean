import Mathlib
import CodeGraph.Proofs.Server.Isolation
import CodeGraph.Proofs.Server.Naming
import CodeGraph.Proofs.Server.Transports

/-!
# Identifiers in replies are read back

Whatever a server sends as the name of a node is read back as the identifier of this node, also
after nodes were replaced, snapshots restored, and databases flushed and opened again, and also
for the ends of edges at which there is no node.  Two things make this so.

* In a named graph the name of an identifier is read as this identifier
  (`Graph.Named.parse_displayName`), and in an undisturbed run all graphs are named.
* Replies show identifiers by these names, node by node, edge by edge and value by value
  (`Graph.ReadsBack.question`), and requests that do not only read show none
  (`Server.shown_dispatch`).

A client that adds a node and asks for it by the same name gets back what it wrote
(`Server.getNode_of_addNodes`).
-/

namespace CodeGraph

open Catalog

/-! ### Replies -/

/-- A text shows a value: it is read as the identifier of a node, and is the text itself for
any other value. -/
def Rules.Value.ShownAs : Rules.Value → String → Prop
  | .node id, name => NodeId.parse name = id
  | .text s, name => name = s

/-- The names of nodes and the values of variables in a reply, in the order in which they are
sent. -/
def Response.names : Response → List String
  | .node found => found.toList.map Wire.Node.id
  | .nodesChunk all _ _ | .nodes all => all.map Wire.Node.id
  | .edges all => all.flatMap fun edge => [edge.src, edge.dst]
  | .ids all => all
  | .violations answers | .results answers => answers.flatMap (·.map Prod.snd)
  | _ => []

/-- The ends of an edge as values. -/
def Edge.ends (edge : Edge) : List Rules.Value :=
  [.node edge.src, .node edge.dst]

/-- The values of all variables in answers, if there are any. -/
def Rules.boundValues : Except Rules.QueryError (List Rules.Bindings) → List Rules.Value
  | .ok answers => answers.flatMap fun bindings => bindings.toList.map Prod.snd
  | .error _ => []

namespace Graph

/-- The nodes with the given identifiers as values. -/
def stored (g : Graph) (ids : List NodeId) : List Rules.Value :=
  (ids.filterMap g.node?).map fun node => .node node.id

end Graph

/-- What a request finds in the open graph: nodes by their identifiers, the ends of edges, and
the values of variables. -/
def Request.found (rules : List Rules.Rule) (g : Graph) : Request → List Rules.Value
  | getNode id => g.stored [.parse id]
  | findByType type => (g.findByType type).toList.map .node
  | findByAttr query => (g.findByAttr (.ofWire query)).map .node
  | queryNodes query => g.stored (g.findByAttr (.ofWire query))
  | getAllEdges => g.allEdges.flatMap Edge.ends
  | getOutgoingEdges id types => (g.outgoingEdges (.parse id) types).flatMap Edge.ends
  | getIncomingEdges id types => (g.incomingEdges (.parse id) types).flatMap Edge.ends
  | queryEdges id direction types limit =>
    (Graph.limited limit
      ((g.edgesInDirection? (.parse id) direction types).getD [])).flatMap Edge.ends
  | neighbors id types => (g.neighbors (.parse id) types).map .node
  | bfs start maxDepth types => (g.reach (start.map .parse) maxDepth types).map .node
  | dfs start maxDepth types => (g.walk (start.map .parse) maxDepth types).map .node
  | reachability start maxDepth types backward =>
    (g.reachability (start.map .parse) maxDepth types backward).map .node
  | checkGuarantee source => Rules.boundValues (Rules.checkGuarantee g source)
  | datalogQuery query => Rules.boundValues (Rules.runQuery g rules query)
  | executeDatalog source => Rules.boundValues (Rules.execute g rules source)
  | _ => []

namespace Graph

/-- A graph in which every name that is shown is read back. -/
structure ReadsBack (g : Graph) : Prop where
  named : g.Named
  keyed : g.toContents.Keyed

namespace ReadsBack

open Rules

variable {g : Graph}

lemma ids (h : g.ReadsBack) (ids : List NodeId) :
    List.Forall₂ Value.ShownAs (ids.map .node) (g.idsResponse ids).names := by
  unfold idsResponse
  rw [Response.names, List.forall₂_map_left_iff, List.forall₂_map_right_iff, List.forall₂_same]
  exact fun id _ => h.named.parse_displayName h.keyed id

lemma described (h : g.ReadsBack) (ids : List NodeId) :
    List.Forall₂ Value.ShownAs (g.stored ids) ((g.described ids).map Wire.Node.id) := by
  unfold stored Graph.described
  rw [List.map_map, List.forall₂_map_left_iff, List.forall₂_map_right_iff, List.forall₂_same]
  intro node hnode
  obtain ⟨id, -, hstored⟩ := List.mem_filterMap.1 hnode
  exact (h.named.contents id node hstored).parse_displayName

lemma edges (h : g.ReadsBack) (edges : List Edge) :
    List.Forall₂ Value.ShownAs (edges.flatMap Edge.ends) (g.edgesResponse edges).names := by
  induction edges with
  | nil => exact .nil
  | cons edge edges ih =>
    have hsrc := h.named.parse_displayName h.keyed edge.src
    have hdst := h.named.parse_displayName h.keyed edge.dst
    exact .cons hsrc (.cons hdst ih)

lemma value (h : g.ReadsBack) (value : Value) : value.ShownAs (g.displayValue value) := by
  cases value with
  | node id => exact h.named.parse_displayName h.keyed id
  | text text => rfl

lemma bindings (h : g.ReadsBack) (answers : List Bindings) :
    List.Forall₂ Value.ShownAs (boundValues (.ok answers))
      ((answers.map g.displayBindings).flatMap (·.map Prod.snd)) := by
  rw [boundValues, List.flatMap_map]
  refine List.rel_flatMap (List.forall₂_same.2 fun bindings _ => Eq.refl bindings) ?_
  rintro bindings _ rfl
  simp only [displayBindings, List.map_map]
  rw [List.forall₂_map_left_iff, List.forall₂_map_right_iff, List.forall₂_same]
  exact fun entry _ => h.value entry.2

/-- What a request finds is shown in the answer. -/
lemma question (h : g.ReadsBack) (rules : List Rule) {request : Request}
    {question : Graph → Response} (hquestion : request.question? rules = some question) :
    List.Forall₂ Value.ShownAs (request.found rules g) (question g).names := by
  have hanswers : ∀ {reply : List (List (String × String)) → Response} outcome,
      (∀ answers, (reply answers).names = answers.flatMap (·.map Prod.snd)) →
      List.Forall₂ Value.ShownAs (boundValues outcome) (g.answersResponse reply outcome).names := by
    intro reply outcome hreply
    cases outcome with
    | ok answers =>
      rw [answersResponse, hreply]
      exact h.bindings answers
    | error => exact .nil
  cases request with
  | getNode id =>
    obtain rfl := Option.some.inj hquestion
    have hnode : (Response.node ((g.node? (.parse id)).map Node.toWire)).names
        = (g.described [NodeId.parse id]).map Wire.Node.id := by
      cases hnode : g.node? (.parse id) <;> simp [Response.names, Graph.described, hnode]
    simp only [hnode]
    exact h.described _
  | queryNodes query =>
    obtain rfl := Option.some.inj hquestion
    exact h.described _
  | findByType | findByAttr | neighbors | bfs | dfs | reachability =>
    obtain rfl := Option.some.inj hquestion
    exact h.ids _
  | getAllEdges | getOutgoingEdges | getIncomingEdges =>
    obtain rfl := Option.some.inj hquestion
    exact h.edges _
  | queryEdges id direction types limit =>
    obtain rfl := Option.some.inj hquestion
    simp only [Request.found]
    cases g.edgesInDirection? (.parse id) direction types with
    | some edges => exact h.edges _
    | none => cases limit <;> simp [Graph.limited, Response.names]
  | checkGuarantee | datalogQuery | executeDatalog =>
    obtain rfl := Option.some.inj hquestion
    exact hanswers _ fun _ => rfl
  | diffSnapshots source target =>
    obtain rfl := Option.some.inj hquestion
    simp only [Request.found]
    cases g.diffSnapshots source target with
    | ok => exact .nil
    | error => exact .nil
  | nodeExists | getNodeIdentifier | isEndpoint | findDependentFiles | nodeCount | edgeCount
  | countNodesByType | countEdgesByType | listSnapshots | findSnapshot =>
    obtain rfl := Option.some.inj hquestion
    exact .nil
  | _ => simp [Request.question?] at hquestion

end ReadsBack

end Graph

/-! ### Requests that show nothing -/

/-- What changes a graph shows no names. -/
lemma Request.names_change {now : Nat} {request : Request} {change : Graph → Disk → Change}
    (hchange : request.change? now = some change) (g : Graph) (disk : Disk) :
    (change g disk).response.names = [] := by
  have hexcept : ∀ outcome, (Change.ofExcept g disk outcome).response.names = [] := by
    intro outcome
    cases outcome <;> rfl
  cases request with
  | updateNodeVersion id version =>
    obtain rfl := Option.some.inj hchange
    simp only [Graph.updateVersion]
    split <;> rfl
  | commitBatch files nodes edges =>
    obtain rfl := Option.some.inj hchange
    simp only [Graph.commit]
    split <;> rfl
  | flush =>
    obtain rfl := Option.some.inj hchange
    unfold Graph.flushed
    split <;> rfl
  | compact =>
    obtain rfl := Option.some.inj hchange
    unfold Graph.compacted
    split <;> rfl
  | restoreSnapshot | deleteSnapshot | tagSnapshot =>
    obtain rfl := Option.some.inj hchange
    exact hexcept _
  | addNodes | deleteNode | addEdges | deleteEdge | declareFields | rebuildIndexes
  | createSnapshot | clear =>
    obtain rfl := Option.some.inj hchange
    rfl
  | _ => simp [Request.change?] at hchange

namespace Server

open Rules

variable (server : Server) (s : Session) (r : Readings)

lemma names_manage (request : Request) : (server.manage s r request).1.names = [] := by
  have hcatalog : ∀ {reply : Response} outcome, reply.names = [] →
      (catalogResponse reply outcome).names = [] := by
    intro reply outcome hreply
    cases outcome with
    | ok => exact hreply
    | error => rfl
  cases request with
  | createDatabase | dropDatabase => exact hcatalog _ rfl
  | openDatabase name mode =>
    change (server.openDatabase s name (.ofName mode)).1.names = []
    unfold openDatabase
    split
    · split <;> rfl
    · rfl
  | closeDatabase =>
    change (server.closeDatabase s).1.names = []
    unfold closeDatabase
    cases s.current <;> rfl
  | beginBatch =>
    change (beginBatch s).1.names = []
    unfold beginBatch
    split <;> rfl
  | abortBatch =>
    change (abortBatch s).1.names = []
    unfold abortBatch
    split <;> rfl
  | datalogLoadRules source =>
    change (loadRules s source).1.names = []
    unfold loadRules
    split
    · rfl
    · split <;> rfl
  | _ => rfl

/-- A request that does not read the open graph finds nothing in it. -/
lemma found_eq_nil {request : Request} (h : request.reads = false) (rules : List Rule)
    (g : Graph) : request.found rules g = [] := by
  cases request <;> first | rfl | simp [Request.reads] at h

lemma flatMap_names_chunkResponses (index : UInt32) (parts : List (List Wire.Node)) :
    (chunkResponses index parts).flatMap Response.names
      = parts.flatten.map Wire.Node.id := by
  induction index, parts using chunkResponses.induct with
  | case1 index => rfl
  | case2 index part => simp [chunkResponses, Response.names]
  | case3 index part parts hparts ih =>
    rw [chunkResponses, List.flatMap_cons, ih, List.flatten_cons, List.map_append]
    · rfl
    · exact hparts

/-- Nodes that come in parts are shown like nodes that come at once. -/
lemma names_queryNodes (g : Graph) (query : Wire.Query) :
    (s.queryNodes g query).responses.flatMap Response.names
      = (g.selected query).map Wire.Node.id := by
  unfold Session.queryNodes
  simp only
  split
  · have hsize : 0 < chunkSize := by decide
    have hcut := isCut_chunksOf hsize (g.findByAttr (.ofWire query))
    rw [Reply.responses, flatMap_names_chunkResponses, Graph.flatten_map_described, hcut.flatten]
    rfl
  · exact List.append_nil _

lemma names_serverChange {request : Request} {change : Graph → Disk → Change}
    (hchange : request.change? r.now = some change) :
    (server.change s change).1.names = [] := by
  unfold Server.change
  split
  · split
    · exact request.names_change hchange _ _
    · rfl
  · rfl

variable {server}

/-- What a request with a single reply finds in the open graph is shown in this reply. -/
lemma shown_respond {open? : Option Database} (hopen : s.database? server.catalog = open?)
    (h : ∀ db ∈ open?, db.graph.ReadsBack) (request : Request) :
    List.Forall₂ Value.ShownAs
      ((open?.map fun db => request.found s.rules db.graph).getD [])
      (server.respond s r request).1.names := by
  have hquestion := request.isSome_question? s.rules
  unfold respond
  split
  · next question _ hsome =>
    unfold ask
    rw [hopen]
    cases open? with
    | none => exact .nil
    | some db => exact (h db rfl).question s.rules hsome
  · next change hnone hchange =>
    rw [hnone] at hquestion
    simp only [found_eq_nil hquestion.symm, names_serverChange server s r hchange]
    cases open? <;> exact .nil
  · next hnone _ =>
    rw [hnone] at hquestion
    simp only [found_eq_nil hquestion.symm, names_manage]
    cases open? <;> exact .nil

/-- What a request finds in the open graph is shown in the reply, and nothing else. -/
theorem shown_dispatch
    (h : ∀ handle db, server.catalog.database? handle = some db → db.graph.ReadsBack)
    (request : Request) :
    List.Forall₂ Value.ShownAs
      (((s.database? server.catalog).map fun db => request.found s.rules db.graph).getD [])
      ((server.dispatch s r request).1.responses.flatMap Response.names) := by
  have hopen : ∀ db ∈ s.database? server.catalog, db.graph.ReadsBack := by
    intro db hdb
    obtain ⟨handle, -, hdb⟩ := Option.bind_eq_some_iff.1 hdb
    exact h handle db hdb
  unfold dispatch
  split
  · next query =>
    cases hdb : s.database? server.catalog with
    | none => exact .nil
    | some db =>
      simp only [names_queryNodes]
      exact (hopen db hdb).described _
  · cases s.database? server.catalog <;> exact .nil
  · have hshown := shown_respond s r rfl hopen request
    rw [← List.append_nil (Response.names _)] at hshown
    exact hshown

/-! ### Adding a node and asking for it -/

lemma dispatch_addNodes {handle : Handle} {db : Database} (hcurrent : s.current = some handle)
    (hdb : server.catalog.database? handle = some db) (hmode : s.mode = .readWrite)
    (nodes : List Wire.Node) :
    server.dispatch s r (.addNodes nodes) = (.single (.nodesAdded nodes.length),
      server.withCatalog (server.catalog.modify handle fun old =>
        { old with graph := db.graph.addNodes (nodes.map .ofWire) }), s) := by
  simp only [dispatch, respond, Request.question?, Request.change?,
    change_of_readWrite hmode hcurrent hdb]
  rfl

lemma dispatch_getNode {db : Database} (hopen : s.database? server.catalog = some db)
    (id : String) :
    (server.dispatch s r (.getNode id)).1
      = .single (.node ((db.graph.node? (.parse id)).map Node.toWire)) := by
  simp only [dispatch, respond, Request.question?, ask, hopen]

/-- A node that was added is found by the name that the client used, with this name and with
all that the client told about it. -/
theorem getNode_of_addNodes {db : Database} (hopen : s.database? server.catalog = some db)
    (hmode : s.mode = .readWrite) (node : Wire.Node) {s' : Session}
    (hsame : s'.current = s.current) (r' : Readings) :
    (server.dispatch s r (.addNodes [node])).1 = .single (.nodesAdded 1) ∧
      ((server.dispatch s r (.addNodes [node])).2.1.dispatch s' r'
        (.getNode (node.semanticId.getD node.id))).1
        = .single (.node (some
            { node with id := node.semanticId.getD node.id, semanticId := none })) := by
  obtain ⟨handle, hcurrent, hdb⟩ := Option.bind_eq_some_iff.1 hopen
  rw [dispatch_addNodes s r hcurrent hdb hmode]
  set added : Database := { db with graph := db.graph.addNodes [Node.ofWire node] } with hadded
  have hopen' : s'.database? (server.withCatalog (server.catalog.modify handle fun old =>
      { old with graph := db.graph.addNodes ([node].map .ofWire) })).catalog = some added := by
    rw [Session.database?, hsame, hcurrent, Option.bind_some]
    change (server.catalog.modify handle _).database? handle = some added
    rw [database?_modify, if_pos rfl, hdb]
    rfl
  have hfound : added.graph.node? (.parse (node.semanticId.getD node.id))
      = some (Node.ofWire node) := by
    change (db.graph.nodes.insert (Node.ofWire node).id (Node.ofWire node))[_]? = _
    exact Std.ExtTreeMap.getElem?_insert_self
  refine ⟨rfl, ?_⟩
  rw [dispatch_getNode s' r' hopen', hfound, Option.map_some, Node.toWire,
    Node.displayName_ofWire]
  rfl

end Server

namespace Population

open Rules

variable {p : Population}

/-- In an undisturbed population every stored node either has no text of its own or has one that
is no canonical decimal and is read as its identifier; and the disk is such that a server that
begins on it is undisturbed again.  So whatever a request finds in the open graph, all nodes and
all ends of edges among it, is shown in the reply by texts that are read as their identifiers.
A node that was just added is found by the name that the client used, byte for byte, with all
that the client told about it. -/
theorem Undisturbed.readsBack (h : Undisturbed p) :
    p.server.catalog.disk.Named ∧
    (∀ handle db, p.server.catalog.database? handle = some db →
      ∀ id node, db.graph.nodes[id]? = some node → node.id = id ∧
        (node.semanticId = none ∨ ∃ name, node.semanticId = some name ∧
          NodeId.isNumeric name = false ∧ NodeId.parse name = id)) ∧
    (∀ s r request, List.Forall₂ Value.ShownAs
      (((s.database? p.server.catalog).map fun db => request.found s.rules db.graph).getD [])
      ((p.server.dispatch s r request).1.responses.flatMap Response.names)) ∧
    ∀ s s' r r' db node, s.database? p.server.catalog = some db → s.mode = .readWrite →
      s'.current = s.current →
      (p.server.dispatch s r (.addNodes [node])).1 = .single (.nodesAdded 1) ∧
        ((p.server.dispatch s r (.addNodes [node])).2.1.dispatch s' r'
          (.getNode (node.semanticId.getD node.id))).1
          = .single (.node (some
              { node with id := node.semanticId.getD node.id, semanticId := none })) := by
  have hgraph : ∀ handle db, p.server.catalog.database? handle = some db →
      db.graph.ReadsBack := fun handle db hdb =>
    ⟨h.named.graph hdb, (h.reachable.graph_reachable hdb).consistent.keyed⟩
  refine ⟨h.named.disk, fun handle db hdb id node hnode => ?_,
    fun s r request => Server.shown_dispatch s r hgraph request,
    fun s s' r r' db node hopen hmode hsame =>
      Server.getNode_of_addNodes s r hopen hmode node hsame r'⟩
  have hid : node.id = id := (hgraph handle db hdb).keyed.node hnode
  have hnamed := (hgraph handle db hdb).named.contents id node hnode
  refine ⟨hid, ?_⟩
  cases hname : node.semanticId with
  | none => exact .inl rfl
  | some name =>
    obtain ⟨hnumeric, hparse⟩ := hnamed name hname
    exact .inr ⟨name, rfl, hnumeric, hparse.trans hid⟩

/-! ### Names on a disk -/

/-- A node that is named by a text. -/
def handler : Wire.Node :=
  ⟨"app.js->f", none, some "FUNCTION", some "f", some "app.js", true, none⟩

/-- The image of a graph with this node and one that is named by a number. -/
def keptImage : Image :=
  ⟨[.ofWire { handler with id := "42" }, .ofWire handler], [], []⟩

/-- The disk on which this image lies in the directory `/db`. -/
def keptDisk : Disk := (Graph.writeImage Graph.homeDisk ⟨"/db"⟩ keptImage).2

/-- The catalog of a server that has opened this directory as its default database. -/
def keptCatalog : Catalog :=
  ((Catalog.empty ⟨"/dbs"⟩ keptDisk).register defaultDatabase (.ofImage ⟨"/db"⟩ keptImage) false).2

lemma decode?_kept : Image.decode? keptImage.encode = some keptImage :=
  Image.decode?_encode (by decide +kernel)

lemma keptDisk_named : keptDisk.Named := by
  have hhome : Graph.homeDisk.Named := Disk.AllFiles.empty.insertDirectory ["db"]
  refine Graph.writeImage_snd_named hhome ⟨"/db"⟩ decode?_kept fun node hnode => ?_
  obtain rfl | rfl : node = .ofWire { handler with id := "42" } ∨ node = .ofWire handler := by
    simpa [keptImage] using hnode
  · exact Node.named_ofWire _
  · exact Node.named_ofWire _

lemma keptCatalog_eq :
    keptCatalog = ((Catalog.empty ⟨"/dbs"⟩ keptDisk).createDefault ⟨"/db"⟩).2 := by
  have hwrite : Graph.writeImage Graph.homeDisk ⟨"/db"⟩ keptImage = (true, keptDisk) :=
    Prod.ext (Graph.writeImage_home keptImage) rfl
  have himage : Graph.hasImage keptDisk ⟨"/db"⟩ = true :=
    Disk.contains_of_read? (Graph.read?_of_writeImage hwrite)
  have hload : Graph.loadOrCreate keptDisk ⟨"/db"⟩
      = (.ok (.ofImage ⟨"/db"⟩ keptImage), keptDisk) := by
    unfold Graph.loadOrCreate
    rw [if_pos himage, Graph.load_of_writeImage decode?_kept hwrite]
  unfold keptCatalog createDefault
  simp only [Catalog.empty, hload]

/-- A client of the default database adds a node that is named by a padded number, and an edge
from it to an identifier under which nothing is stored. -/
def paddingRun : List Event :=
  [.accept .webSocket, .attachDefault 0,
    .request 0 atStart (.addNodes [{ handler with id := "007" }]),
    .request 0 atStart (.addEdges [⟨"007", "9", some "CALLS", none⟩] true)]

/-- The population before the client comes. -/
def kept : Population := ⟨⟨keptCatalog, .start false, none, 0⟩, []⟩

/-- The population after these requests. -/
def padded : Population := paddingRun.foldl step kept

/-- Images whose texts and lists are short are decoded as they were encoded. -/
lemma legible_of_fits {c : Catalog}
    (h : ∀ entry ∈ c.databases.toList, entry.2.graph.image.Fits) : c.Legible :=
  fun handle db hdb => Image.decode?_encode
    (h (handle, db) (Std.ExtTreeMap.mem_toList_iff_getElem?_eq_some.2 hdb))

/-- One more step of a run in which all texts and lists are short. -/
lemma Undisturbed.next {p : Population} (h : Undisturbed p) (event : Event)
    (hinside : ∀ disk, event ≠ .outside disk)
    (hfits : ∀ entry ∈ (p.step event).server.catalog.databases.toList,
      entry.2.graph.image.Fits) : Undisturbed (p.step event) :=
  .step event (fun disk heq => absurd heq (hinside disk)) (legible_of_fits hfits) h

lemma undisturbed_padded : Undisturbed padded := by
  have hkept : Undisturbed kept :=
    .startDefault keptDisk_named keptCatalog_eq (legible_of_fits (by decide +kernel))
  have haccepted := hkept.next (.accept .webSocket) (by simp) (by decide +kernel)
  have hattached := haccepted.next (.attachDefault 0) (by simp) (by decide +kernel)
  have hnodes := hattached.next (.request 0 atStart (.addNodes [{ handler with id := "007" }]))
    (by simp) (by decide +kernel)
  exact hnodes.next (.request 0 atStart (.addEdges [⟨"007", "9", some "CALLS", none⟩] true))
    (by simp) (by decide +kernel)

theorem readsBack_padded : Undisturbed padded ∧ padded.server.catalog.disk.Named ∧
    ∃ conn db, padded.connections[0]? = some conn ∧ conn.session.mode = .readWrite ∧
      conn.session.database? padded.server.catalog = some db ∧
      (∃ node, db.graph.nodes[NodeId.parse "app.js->f"]? = some node ∧
        node.semanticId = some "app.js->f" ∧ NodeId.isNumeric "app.js->f" = false ∧
        node.id = NodeId.parse "app.js->f") ∧
      List.Forall₂ Value.ShownAs [.node (.parse "007"), .node (.ofNat 9)]
        ((padded.server.dispatch conn.session atStart .getAllEdges).1.responses.flatMap
          Response.names) ∧
      (padded.server.dispatch conn.session atStart (.addNodes [{ handler with id := "+7" }])).1
        = .single (.nodesAdded 1) ∧
      ((padded.server.dispatch conn.session atStart
          (.addNodes [{ handler with id := "+7" }])).2.1.dispatch conn.session atStart
        (.getNode "+7")).1 = .single (.node (some { handler with id := "+7" })) := by
  obtain ⟨hdisk, hstored, hshown, hadded⟩ := undisturbed_padded.readsBack
  obtain ⟨conn, hconn, hcurrent, hmode⟩ :=
    exists_session padded 0 (some 0) .readWrite (by decide +kernel)
  have htext : (padded.server.catalog.database? 0).map (fun db =>
      db.graph.nodes[NodeId.parse "app.js->f"]?.bind Node.semanticId)
        = some (some "app.js->f") := by decide +kernel
  obtain ⟨db, hdb, htext⟩ := Option.map_eq_some_iff.1 htext
  obtain ⟨node, hnode, hname⟩ := Option.bind_eq_some_iff.1 htext
  have hopen : conn.session.database? padded.server.catalog = some db := by
    rw [Session.database?, hcurrent, Option.bind_some, hdb]
  have hfound : (padded.server.catalog.database? 0).map (fun db =>
      db.graph.allEdges.flatMap Edge.ends)
        = some [.node (.parse "007"), .node (.ofNat 9)] := by decide +kernel
  rw [hdb, Option.map_some, Option.some_inj] at hfound
  have hedges := hshown conn.session atStart .getAllEdges
  rw [hopen, Option.map_some, Option.getD_some, Request.found, hfound] at hedges
  obtain ⟨hid, hnone | ⟨name, hname', hnumeric, -⟩⟩ := hstored 0 db hdb _ node hnode
  · simp [hname] at hnone
  · obtain rfl := Option.some.inj (hname.symm.trans hname')
    obtain ⟨hadd, hget⟩ := hadded conn.session conn.session atStart atStart db
      { handler with id := "+7" } hopen hmode rfl
    exact ⟨undisturbed_padded, hdisk, conn, db, hconn, hmode, hopen,
      ⟨node, hnode, hname, hnumeric, hid⟩, hedges, hadd, hget⟩

end Population

end CodeGraph
