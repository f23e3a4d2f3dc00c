import CodeGraph.Graph.Batch
import CodeGraph.Metrics
import CodeGraph.Protocol.Wire

/-!
# Replies

A reply is a map without a tag: clients tell replies apart by their keys.  A reply to a
request with a name repeats that name in front of its own fields.
-/

namespace CodeGraph

open Pack

/-- What a list of databases tells about one of them. -/
structure DatabaseInfo where
  name : String
  ephemeral : Bool
  nodes : Nat
  edges : Nat
  connections : Nat
deriving DecidableEq

/-- What a server tells about itself and about the open database. -/
structure Stats where
  nodes : Nat
  edges : Nat
  unflushed : Nat
  memoryPercent : UInt32
  metrics : Metrics
  uptimeSecs : Nat

/-- A reply. -/
inductive Response where
  | hello (version : Nat) (features : List String)
  | databaseCreated (name : String)
  | databaseOpened (name : String) (mode : String) (nodes edges : Nat)
  | databases (infos : List DatabaseInfo)
  | currentDatabase (name : Option String) (mode : Option String)
  | coded (error : String) (code : String)
  | failed (error : String)
  | ok
  | nodesAdded (count : Nat)
  | edgesAdded (count : Nat)
  | batchStarted (id : String)
  | batchCommitted (delta : CommitDelta)
  | node (node : Option Wire.Node)
  | nodesChunk (nodes : List Wire.Node) (isLast : Bool) (index : UInt32)
  | nodes (nodes : List Wire.Node)
  | edges (edges : List Wire.Edge)
  | ids (ids : List String)
  | truth (value : Bool)
  | count (count : Nat)
  | counts (counts : List (String × Nat))
  | files (files : List String)
  | identifier (identifier : Option String)
  | pong
  | stats (stats : Stats)
  | violations (bindings : List (List (String × String)))
  | results (bindings : List (List (String × String)))
  | snapshotVersion (version : Option Nat)
  | snapshots (snapshots : List (Nat × Snapshot))
  | snapshotDiff (diff : SnapshotDiff)

/-- The version of the server. -/
def serverVersion : String := "0.3.0"

namespace Response

/-- The reply to an operation that was refused. -/
def ofFailure (failure : Failure) : Response :=
  coded failure.message failure.code

/-- Whether a reply is an error. -/
def isError : Response → Bool
  | coded .. | failed .. => true
  | _ => false

/-! ### Fields -/

/-- A number that is a word. -/
def word (n : UInt64) : Item := .ofNat n.toNat

/-- A text or nothing. -/
def textOrNil : Option String → Item
  | some s => .str s
  | none => .nil

/-- What is told about a database. -/
def databaseItem (info : DatabaseInfo) : Item := .record [
  ("name", .str info.name), ("ephemeral", .bool info.ephemeral),
  ("nodeCount", .ofNat info.nodes), ("edgeCount", .ofNat info.edges),
  ("connectionCount", .ofNat info.connections)]

/-- What is told about a batch. -/
def deltaItem (delta : CommitDelta) : Item := .record [
  ("changedFiles", .ofTexts delta.changedFiles), ("nodesAdded", .ofNat delta.nodesAdded),
  ("nodesRemoved", .ofNat delta.nodesRemoved), ("edgesAdded", .ofNat delta.edgesAdded),
  ("edgesRemoved", .ofNat delta.edgesRemoved),
  ("changedNodeTypes", .ofTexts delta.nodeTypes.toList),
  ("changedEdgeTypes", .ofTexts delta.edgeTypes.toList)]

/-- What is told about a snapshot. -/
def snapshotItem (entry : Nat × Snapshot) : Item := .record [
  ("version", .ofNat entry.1), ("createdAt", .ofNat entry.2.createdAt),
  ("tags", .ofTextMap entry.2.tags), ("totalNodes", .ofNat entry.2.totalNodes),
  ("totalEdges", .ofNat entry.2.totalEdges)]

/-- How many nodes and edges there are. -/
def sizeItem (nodes edges : Nat) : Item := .record [
  ("totalNodes", .ofNat nodes), ("totalEdges", .ofNat edges)]

/-- What is told about the difference of two snapshots. -/
def diffItem (diff : SnapshotDiff) : Item := .record [
  ("fromVersion", .ofNat diff.source), ("toVersion", .ofNat diff.target),
  ("addedNodes", .ofNat diff.addedNodes), ("removedNodes", .ofNat diff.removedNodes),
  ("changedNodes", .ofNat diff.changedNodes), ("addedEdges", .ofNat diff.addedEdges),
  ("removedEdges", .ofNat diff.removedEdges),
  ("statsFrom", sizeItem diff.sourceNodes diff.sourceEdges),
  ("statsTo", sizeItem diff.targetNodes diff.targetEdges)]

/-- The bindings of one answer. -/
def bindingsItem (bindings : List (String × String)) : Item := .record [
  ("bindings", .record (bindings.map fun (name, value) => (name, .str value)))]

/-- What is told about a slow request. -/
def slowQueryItem (query : SlowQuery) : Item := .record [
  ("operation", .str query.operation), ("durationMs", word query.duration),
  ("timestampMs", .ofNat query.recordedAt)]

/-- What is told about a command. -/
def commandItem (entry : String × CommandCount) : Item := .record [
  ("operation", .str entry.1), ("count", .ofNat entry.2.count),
  ("avgMs", word entry.2.average)]

/-- The fields of the statistics. -/
def statsFields (s : Stats) : List (String × Item) :=
  let m := s.metrics
  [("nodeCount", .ofNat s.nodes), ("edgeCount", .ofNat s.edges),
    ("deltaSize", .ofNat s.unflushed), ("memoryPercent", .float32 s.memoryPercent),
    ("metricsEnabled", .bool m.enabled), ("queryCount", .ofNat m.queryCount),
    ("slowQueryCount", .ofNat m.slowCount), ("queryP50Ms", word (m.percentile 50)),
    ("queryP95Ms", word (m.percentile 95)), ("queryP99Ms", word (m.percentile 99)),
    ("queryAvgMs", word m.average), ("flushCount", .ofNat m.flushCount),
    ("flushAvgMs", word m.flushAverage), ("lastFlushMs", word m.lastFlush),
    ("topSlowQueries", .arr (m.slowQueries.toList.map slowQueryItem)),
    ("topOperations", .arr (m.topCommands.map commandItem)),
    ("unixConnections", .ofNat m.unix.opened), ("wsConnections", .ofNat m.webSocket.opened),
    ("activeUnixConnections", .ofNat m.unix.active),
    ("activeWsConnections", .ofNat m.webSocket.active),
    ("decodeErrors", .ofNat m.decodeErrors), ("sendTimeouts", .ofNat m.sendTimeouts),
    ("uptimeSecs", .ofNat s.uptimeSecs)]

/-- The fields of a reply in the order in which they are written. -/
def fields : Response → List (String × Item)
  | .hello version features =>
    [("ok", .bool true), ("protocolVersion", .ofNat version),
      ("serverVersion", .str serverVersion), ("features", .ofTexts features)]
  | .databaseCreated name => [("ok", .bool true), ("databaseId", .str name)]
  | .databaseOpened name mode nodeCount edgeCount =>
    [("ok", .bool true), ("databaseId", .str name), ("mode", .str mode),
      ("nodeCount", .ofNat nodeCount), ("edgeCount", .ofNat edgeCount)]
  | .databases infos => [("databases", .arr (infos.map databaseItem))]
  | .currentDatabase name mode => [("database", textOrNil name), ("mode", textOrNil mode)]
  | .coded error code => [("error", .str error), ("code", .str code)]
  | .failed error => [("error", .str error)]
  | .ok => [("ok", .bool true)]
  | .nodesAdded n => [("nodesAdded", .ofNat n)]
  | .edgesAdded n => [("edgesAdded", .ofNat n)]
  | .batchStarted id => [("ok", .bool true), ("batchId", .str id)]
  | .batchCommitted delta => [("ok", .bool true), ("delta", deltaItem delta)]
  | .node found => [("node", (found.map Wire.Node.toItem).getD .nil)]
  | .nodesChunk part isLast index =>
    [("nodes", .arr (part.map Wire.Node.toItem)), ("done", .bool isLast),
      ("chunkIndex", .ofNat index.toNat)]
  | .nodes all => [("nodes", .arr (all.map Wire.Node.toItem))]
  | .edges all => [("edges", .arr (all.map Wire.Edge.toItem))]
  | .ids all => [("ids", .ofTexts all)]
  | .truth value => [("value", .bool value)]
  | .count n => [("count", .ofNat n)]
  | .counts all => [("counts", .record (all.map fun (type, n) => (type, .ofNat n)))]
  | .files all => [("files", .ofTexts all)]
  | .identifier text => [("identifier", textOrNil text)]
  | .pong => [("pong", .bool true), ("version", .str serverVersion)]
  | .stats s => statsFields s
  | .violations answers => [("violations", .arr (answers.map bindingsItem))]
  | .results answers => [("results", .arr (answers.map bindingsItem))]
  | .snapshotVersion version => [("version", (version.map Item.ofNat).getD .nil)]
  | .snapshots all => [("snapshots", .arr (all.map snapshotItem))]
  | .snapshotDiff diff => [("diff", diffItem diff)]

/-- The document of a reply to a request, which may have a name. -/
def toItem (requestId : Option String) (response : Response) : Item :=
  .record (fieldIfSome "requestId" .str requestId ++ response.fields)

/-- The octets of a reply. -/
def encode (requestId : Option String) (response : Response) : Bytes :=
  (response.toItem requestId).write

end Response

end CodeGraph
