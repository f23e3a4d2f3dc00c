import CodeGraph.Protocol.Request
import CodeGraph.Protocol.Response
import CodeGraph.Protocol.Naming

/-!
# Requests that write

`Request.change?` is what a request does to the graph that is open, for the requests that
need a session in which changes are allowed.
-/

namespace CodeGraph

/-- What becomes of a graph and of the disk, and the reply. -/
structure Change where
  response : Response
  graph : Graph
  disk : Disk

namespace Change

/-- A change of the graph alone, which cannot fail. -/
def done (response : Response) (graph : Graph) (disk : Disk) : Change :=
  ⟨response, graph, disk⟩

/-- A change of the graph alone, which may be refused. -/
def ofExcept (graph : Graph) (disk : Disk) : Except Failure Graph → Change
  | .ok graph => ⟨.ok, graph, disk⟩
  | .error failure => ⟨.ofFailure failure, graph, disk⟩

end Change

namespace Graph

/-- The metadata of a node as the members of an object; none if it is not an object. -/
def metadataMembers (node : Node) : List (String × Json) :=
  match node.metadata? with
  | some (.obj members) => members
  | _ => []

/-- A node with a version in its metadata. -/
def withVersion (node : Node) (version : String) : Node :=
  { node with
    metadata := some (Json.object (metadataMembers node ++ [("version", .str version)])).text }

/-- Sets the version in the metadata of a node. -/
def updateVersion (g : Graph) (disk : Disk) (id version : String) : Change :=
  match g.node? (.parse id) with
  | some node => .done .ok (g.addNode (withVersion node version)) disk
  | none => .done (.failed s!"Node not found: {id}. Add it with addNodes first") g disk

/-- Commits a batch. -/
def commit (g : Graph) (disk : Disk) (changedFiles : List String) (nodes : List Wire.Node)
    (edges : List Wire.Edge) : Change :=
  match g.commitBatch disk changedFiles (nodes.map .ofWire) (edges.map .ofWire) with
  | (.ok delta, g, disk) => ⟨.batchCommitted delta, g, disk⟩
  | (.error failure, g, disk) =>
    ⟨.failed s!"Flush failed during commit: {failure.message}", g, disk⟩

/-- Flushes. -/
def flushed (g : Graph) (disk : Disk) : Change :=
  match g.flush disk with
  | (.ok g, disk) => ⟨.ok, g, disk⟩
  | (.error failure, disk) => ⟨.ofFailure failure, g, disk⟩

/-- Compacts. -/
def compacted (g : Graph) (disk : Disk) : Change :=
  match g.compact disk with
  | (.ok (), g, disk) => ⟨.ok, g, disk⟩
  | (.error failure, g, disk) => ⟨.ofFailure failure, g, disk⟩

end Graph

/-- What a request does to the open graph at some time, if it writes. -/
def Request.change? (now : Nat) : Request → Option (Graph → Disk → Change)
  | addNodes nodes => some fun g disk =>
    .done (.nodesAdded nodes.length) (g.addNodes (nodes.map .ofWire)) disk
  | addEdges edges skipValidation => some fun g disk =>
    let edges := g.admissible (edges.map .ofWire) skipValidation
    .done (.edgesAdded edges.length) (g.addEdges edges true) disk
  | deleteNode id => some fun g disk => .done .ok (g.deleteNode (.parse id)) disk
  | deleteEdge src dst type => some fun g disk =>
    .done .ok (g.deleteEdge ⟨.parse src, .parse dst, type⟩) disk
  | updateNodeVersion id version => some fun g disk => g.updateVersion disk id version
  | declareFields fields => some fun g disk =>
    .done (.count fields.length) (g.declareFields (fields.map .ofWire)) disk
  | commitBatch changedFiles nodes edges => some fun g disk =>
    g.commit disk changedFiles nodes edges
  | rebuildIndexes => some fun g disk => .done .ok g.rebuild disk
  | createSnapshot tags => some fun g disk =>
    let (version, g) := g.createSnapshot tags now
    .done (.snapshotVersion (some version)) g disk
  | restoreSnapshot version => some fun g disk => .ofExcept g disk (g.restoreSnapshot version)
  | deleteSnapshot version => some fun g disk => .ofExcept g disk (g.deleteSnapshot version)
  | tagSnapshot version tags => some fun g disk => .ofExcept g disk (g.tagSnapshot version tags)
  | flush => some Graph.flushed
  | compact => some Graph.compacted
  | clear => some fun g disk => .done .ok g.clear disk
  | _ => none

end CodeGraph
