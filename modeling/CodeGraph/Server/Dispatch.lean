import CodeGraph.Rules.Parser
import CodeGraph.Server.Changes
import CodeGraph.Server.Questions
import CodeGraph.Session

/-!
# Dispatch

A server carries out one request at a time for a session.  Requests fall into those that
only read the open graph, those that change it, and those about sessions and databases.
Reading needs an open database; writing needs one that is open for changes.

Whatever the server cannot know by itself, such as the time, comes with each request as
`Readings`.
-/

namespace CodeGraph

/-- What a server reads off its surroundings while it carries out a request: the time,
how long the request and a flush took, and how the machine is doing. -/
structure Readings where
  now : Nat
  elapsed : UInt64
  flushElapsed : UInt64
  sinceStart : Nat
  memoryPercent : UInt32
  uptimeSecs : Nat

/-- A server: its databases, what it has counted, the file of its socket, and the number
of the next client. -/
structure Server where
  catalog : Catalog
  metrics : Metrics
  socket : Option Path
  nextClient : Nat

/-- What is sent back for a request. -/
inductive Reply where
  | single (response : Response)
  | chunked (responses : List Response)
  | shutdown (response : Response)

namespace Reply

/-- The replies in the order in which they are sent. -/
def responses : Reply → List Response
  | single response | shutdown response => [response]
  | chunked responses => responses

end Reply

/-! ### Streaming -/

/-- Results with more nodes than this are streamed where that is possible. -/
def streamingThreshold : Nat := 100

/-- How many nodes a part of a stream has. -/
def chunkSize : Nat := 500

/-- A list cut into parts of a given size, the last one holding what is left. -/
def chunksOf {α : Type} (size : Nat) (list : List α) : List (List α) :=
  if _h : size = 0 ∨ list = [] then []
  else list.take size :: chunksOf size (list.drop size)
termination_by list.length
decreasing_by
  rw [List.length_drop]
  have : list.length ≠ 0 := by simp_all
  omega

/-- Parts with their numbers as replies, the last one being marked.  The numbers are words
of 32 bits. -/
def chunkResponses : (index : UInt32) → List (List Wire.Node) → List Response
  | _, [] => []
  | index, [part] => [.nodesChunk part true index]
  | index, part :: rest => .nodesChunk part false index :: chunkResponses (index + 1) rest

namespace Session

/-- Whether a result of some size is streamed to a client. -/
def streams (s : Session) (size : Nat) : Bool :=
  s.transport.streams && newestVersion ≤ s.version && streamingThreshold < size

/-- The nodes that a query selects, in parts if they are streamed.  The nodes of each part
are looked up by themselves. -/
def queryNodes (s : Session) (g : Graph) (query : Wire.Query) : Reply :=
  let ids := g.findByAttr (.ofWire query)
  if s.streams ids.length then
    .chunked (chunkResponses 0 ((chunksOf chunkSize ids).map g.described))
  else .single (.nodes (g.described ids))

end Session

/-! ### Reading and writing -/

namespace Server

/-- Asks the open graph. -/
def ask (server : Server) (s : Session) (question : Graph → Response) : Response :=
  match s.database? server.catalog with
  | some db => question db.graph
  | none => .ofFailure .noDatabaseSelected

/-- Changes the open graph. -/
def change (server : Server) (s : Session) (change : Graph → Disk → Change) :
    Response × Server :=
  match s.current, s.database? server.catalog with
  | some handle, some db =>
    if s.mode.allowsWrites then
      let result := change db.graph server.catalog.disk
      let catalog := { server.catalog with disk := result.disk }
      (result.response, { server with
        catalog := catalog.modify handle fun db => { db with graph := result.graph } })
    else (.ofFailure .readOnlyMode, server)
  | _, _ => (.ofFailure .noDatabaseSelected, server)

/-- Puts a changed catalog in the place of the old one. -/
def withCatalog (server : Server) (catalog : Catalog) : Server :=
  { server with catalog := catalog }

/-- What is told about the server and the open database. -/
def stats (server : Server) (s : Session) (r : Readings) : Stats :=
  let open? := s.database? server.catalog
  { nodes := (open?.map fun db => db.graph.nodes.size).getD 0
    edges := (open?.map fun db => db.graph.edges.size).getD 0
    unflushed := (open?.map fun db => db.graph.unflushed).getD 0
    memoryPercent := r.memoryPercent
    metrics := server.metrics
    uptimeSecs := r.uptimeSecs }

/-- What is told about a database. -/
def databaseInfo (db : Database) : DatabaseInfo where
  name := db.name
  ephemeral := db.ephemeral
  nodes := db.graph.nodes.size
  edges := db.graph.edges.size
  connections := db.connections

/-- What is told about all databases. -/
def databaseInfos (server : Server) : List DatabaseInfo :=
  server.catalog.registeredDatabases.map fun (_, db) => databaseInfo db

/-! ### Sessions and databases -/

/-- What a server can do for a session. -/
def features (transport : Transport) : List String :=
  ["multiDatabase", "ephemeral", "semanticIds", "batches", "snapshots"] ++
    if transport.streams then ["streaming"] else []

/-- Opens a database by name. -/
def openDatabase (server : Server) (s : Session) (name : String) (mode : AccessMode) :
    Response × Server × Session :=
  match server.catalog.getDatabase name with
  | (.ok handle, catalog) =>
    match catalog.database? handle with
    | some db =>
      let (s, catalog) := s.openDatabase catalog handle mode
      (.databaseOpened name mode.text db.graph.nodes.size db.graph.edges.size,
        server.withCatalog catalog, s)
    | none => (.ofFailure (.databaseNotFound name), server.withCatalog catalog, s)
  | (.error failure, catalog) => (.ofFailure failure, server.withCatalog catalog, s)

/-- Leaves the open database. -/
def closeDatabase (server : Server) (s : Session) : Response × Server × Session :=
  let (left, catalog) := s.closeDatabase server.catalog
  (if s.current.isSome then .ok else .failed "No database currently open. Nothing to close",
    server.withCatalog catalog, left)

/-- The reply to an operation on the catalog. -/
def catalogResponse (reply : Response) : Except Failure Unit → Response
  | .ok () => reply
  | .error failure => .ofFailure failure

/-- Begins a batch. -/
def beginBatch (s : Session) : Response × Session :=
  match s.beginBatch with
  | some (name, s) => (.batchStarted name, s)
  | none =>
    let begun := s.batch.getD ""
    (.coded s!"Batch already in progress: {begun}. Commit or abort it first" "BATCH_IN_PROGRESS", s)

/-- Ends a batch without committing it. -/
def abortBatch (s : Session) : Response × Session :=
  match s.batch with
  | some _ => (.ok, { s with batch := none })
  | none => (.coded "No batch in progress. Call beginBatch first" "NO_BATCH", s)

/-- Loads rules for the queries to come. -/
def loadRules (s : Session) (source : String) : Response × Session :=
  if s.current.isNone then (.ofFailure .noDatabaseSelected, s)
  else
    match Rules.parseProgram source with
    | .ok rules => (.count rules.length, { s with rules := s.rules ++ rules })
    | .error error => (.failed (Rules.QueryError.badRules error).message, s)

/-! ### Requests -/

/-- Carries out a request that neither reads nor changes the open graph. -/
def manage (server : Server) (s : Session) (r : Readings) :
    Request → Response × Server × Session
  | .hello protocolVersion clientId =>
    let s := s.negotiate protocolVersion clientId
    (.hello s.version (features s.transport), server, s)
  | .createDatabase name ephemeral =>
    let (result, catalog) := server.catalog.createDatabase name ephemeral
    (catalogResponse (.databaseCreated name) result, server.withCatalog catalog, s)
  | .openDatabase name mode => server.openDatabase s name (.ofName mode)
  | .closeDatabase => server.closeDatabase s
  | .dropDatabase name =>
    let (result, catalog) := server.catalog.dropDatabase name
    (catalogResponse .ok result, server.withCatalog catalog, s)
  | .listDatabases => (.databases server.databaseInfos, server, s)
  | .currentDatabase =>
    (.currentDatabase ((s.database? server.catalog).map Database.name)
      (s.current.map fun _ => s.mode.text), server, s)
  | .beginBatch =>
    let (response, s) := beginBatch s
    (response, server, s)
  | .abortBatch =>
    let (response, s) := abortBatch s
    (response, server, s)
  | .datalogLoadRules source =>
    let (response, s) := loadRules s source
    (response, server, s)
  | .datalogClearRules => (.ok, server, { s with rules := [] })
  | .ping => (.pong, server, s)
  | .getStats => (.stats (server.stats s r), server, s)
  | _ => (.ok, server, s)

/-- What happens after a change besides the change itself: a successful flush is
recorded, and a successful commit ends the batch. -/
def afterChange (server : Server) (s : Session) (r : Readings) (request : Request)
    (response : Response) : Server × Session :=
  if response.isError then (server, s)
  else
    match request with
    | .flush => ({ server with metrics := server.metrics.recordFlush r.flushElapsed }, s)
    | .commitBatch .. => (server, { s with batch := none })
    | _ => (server, s)

/-- Carries out a request that has a single reply. -/
def respond (server : Server) (s : Session) (r : Readings) (request : Request) :
    Response × Server × Session :=
  match request.question? s.rules, request.change? r.now with
  | some question, _ => (server.ask s question, server, s)
  | none, some change =>
    let (response, server) := server.change s change
    let (server, s) := server.afterChange s r request response
    (response, server, s)
  | none, none => server.manage s r request

/-- Carries out a request. -/
def dispatch (server : Server) (s : Session) (r : Readings) (request : Request) :
    Reply × Server × Session :=
  match request with
  | .queryNodes query =>
    match s.database? server.catalog with
    | some db => (s.queryNodes db.graph query, server, s)
    | none => (.single (.ofFailure .noDatabaseSelected), server, s)
  | .shutdown => (.shutdown .ok, server.withCatalog server.catalog.flushAll.2, s)
  | request =>
    let (response, server, s) := server.respond s r request
    (.single response, server, s)

end Server

end CodeGraph
