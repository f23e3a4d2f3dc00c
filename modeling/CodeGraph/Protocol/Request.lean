import CodeGraph.Protocol.Wire

/-!
# Requests

Every command that a server understands, with its arguments.  `Request.commands` lists
the commands by name, in the order of their numbers, with the way their arguments are
read; `Request.arguments` writes them.
-/

namespace CodeGraph

open Pack

/-- A command with its arguments. -/
inductive Request where
  -- Sessions and databases
  | hello (protocolVersion : Option Nat) (clientId : Option String)
  | createDatabase (name : String) (ephemeral : Bool)
  | openDatabase (name : String) (mode : String)
  | closeDatabase
  | dropDatabase (name : String)
  | listDatabases
  | currentDatabase
  -- Nodes and edges
  | addNodes (nodes : List Wire.Node)
  | addEdges (edges : List Wire.Edge) (skipValidation : Bool)
  | deleteNode (id : String)
  | deleteEdge (src dst : String) (type : String)
  | getNode (id : String)
  | nodeExists (id : String)
  | getNodeIdentifier (id : String)
  | isEndpoint (id : String)
  | updateNodeVersion (id : String) (version : String)
  -- Queries
  | findByType (type : String)
  | findByAttr (query : Wire.Query)
  | queryNodes (query : Wire.Query)
  | getAllEdges
  | getOutgoingEdges (id : String) (types : Option (List String))
  | getIncomingEdges (id : String) (types : Option (List String))
  | queryEdges (id : String) (direction : String) (types : Option (List String))
      (limit : Option Nat)
  | findDependentFiles (id : String) (types : Option (List String))
  | nodeCount
  | edgeCount
  | countNodesByType (types : Option (List String))
  | countEdgesByType (types : Option (List String))
  | declareFields (fields : List Wire.Field)
  -- Walks
  | neighbors (id : String) (types : List String)
  | bfs (start : List String) (maxDepth : Nat) (types : List String)
  | dfs (start : List String) (maxDepth : Nat) (types : List String)
  | reachability (start : List String) (maxDepth : Nat) (types : List String)
      (backward : Bool)
  -- Batches
  | beginBatch
  | commitBatch (changedFiles : List String) (nodes : List Wire.Node) (edges : List Wire.Edge)
  | abortBatch
  | rebuildIndexes
  -- Snapshots
  | createSnapshot (tags : Std.ExtTreeMap String String)
  | listSnapshots (tag : Option String)
  | diffSnapshots (source target : Nat)
  | restoreSnapshot (version : Nat)
  | deleteSnapshot (version : Nat)
  | tagSnapshot (version : Nat) (tags : Std.ExtTreeMap String String)
  | findSnapshot (key : String) (value : String)
  -- Rules
  | checkGuarantee (source : String)
  | datalogLoadRules (source : String)
  | datalogClearRules
  | datalogQuery (query : String)
  | executeDatalog (source : String)
  -- Control
  | ping
  | flush
  | compact
  | clear
  | getStats
  | shutdown

namespace Request

/-- The name of a command. -/
def name : Request → String
  | hello .. => "hello"
  | createDatabase .. => "createDatabase"
  | openDatabase .. => "openDatabase"
  | closeDatabase => "closeDatabase"
  | dropDatabase .. => "dropDatabase"
  | listDatabases => "listDatabases"
  | currentDatabase => "currentDatabase"
  | addNodes .. => "addNodes"
  | addEdges .. => "addEdges"
  | deleteNode .. => "deleteNode"
  | deleteEdge .. => "deleteEdge"
  | getNode .. => "getNode"
  | nodeExists .. => "nodeExists"
  | getNodeIdentifier .. => "getNodeIdentifier"
  | isEndpoint .. => "isEndpoint"
  | updateNodeVersion .. => "updateNodeVersion"
  | findByType .. => "findByType"
  | findByAttr .. => "findByAttr"
  | queryNodes .. => "queryNodes"
  | getAllEdges => "getAllEdges"
  | getOutgoingEdges .. => "getOutgoingEdges"
  | getIncomingEdges .. => "getIncomingEdges"
  | queryEdges .. => "queryEdges"
  | findDependentFiles .. => "findDependentFiles"
  | nodeCount => "nodeCount"
  | edgeCount => "edgeCount"
  | countNodesByType .. => "countNodesByType"
  | countEdgesByType .. => "countEdgesByType"
  | declareFields .. => "declareFields"
  | neighbors .. => "neighbors"
  | bfs .. => "bfs"
  | dfs .. => "dfs"
  | reachability .. => "reachability"
  | beginBatch => "beginBatch"
  | commitBatch .. => "commitBatch"
  | abortBatch => "abortBatch"
  | rebuildIndexes => "rebuildIndexes"
  | createSnapshot .. => "createSnapshot"
  | listSnapshots .. => "listSnapshots"
  | diffSnapshots .. => "diffSnapshots"
  | restoreSnapshot .. => "restoreSnapshot"
  | deleteSnapshot .. => "deleteSnapshot"
  | tagSnapshot .. => "tagSnapshot"
  | findSnapshot .. => "findSnapshot"
  | checkGuarantee .. => "checkGuarantee"
  | datalogLoadRules .. => "datalogLoadRules"
  | datalogClearRules => "datalogClearRules"
  | datalogQuery .. => "datalogQuery"
  | executeDatalog .. => "executeDatalog"
  | ping => "ping"
  | flush => "flush"
  | compact => "compact"
  | clear => "clear"
  | getStats => "getStats"
  | shutdown => "shutdown"

/-! ### Reading -/

/-- Reads the arguments of a command from the entries of a map. -/
abbrev Reader := List (Item × Item) → Except Fault Request

/-- A command without arguments; the entries do not matter. -/
def alone (request : Request) : Reader := fun _ => .ok request

/-- A command with arguments. -/
def taking (fields : Fields Request) : Reader := fields.ofEntries

/-- A list of texts that must be there. -/
def texts (name : String) : Fields (List String) :=
  .required name (Item.asList Item.asText) []

/-- A list of texts that is empty when it is absent. -/
def textsOrNone (name : String) : Fields (List String) :=
  .optional name (Item.asList Item.asText) [] []

/-- A number of so many octets that must be there. -/
def number (name : String) (width : Nat) : Fields Nat :=
  .required name (Item.asNat width) []

/-- A number of four octets that may be absent. -/
def number? (name : String) : Fields (Option Nat) :=
  .optional name (Item.asOption (Item.asNat 4)) none []

/-- A query that must be there. -/
def query : Fields Wire.Query :=
  .required "query" Wire.Query.ofItem []

open Wire (text text? flag texts?)

/-- The commands in the order of their numbers, with the way they are read. -/
def commands : List (String × Reader) := [
  ("hello", taking (hello <$> number? "protocolVersion" <*> text? "clientId")),
  ("createDatabase", taking (createDatabase <$> text "name" <*> flag "ephemeral")),
  ("openDatabase", taking (openDatabase <$> text "name" <*>
    .optional "mode" Item.asText "rw" [])),
  ("closeDatabase", alone closeDatabase),
  ("dropDatabase", taking (dropDatabase <$> text "name")),
  ("listDatabases", alone listDatabases),
  ("currentDatabase", alone currentDatabase),
  ("addNodes", taking (addNodes <$>
    .required "nodes" (Item.asList Wire.Node.fields.ofItem) [])),
  ("addEdges", taking (addEdges <$>
    .required "edges" (Item.asList Wire.Edge.fields.ofItem) [] <*> flag "skipValidation")),
  ("deleteNode", taking (deleteNode <$> text "id")),
  ("deleteEdge", taking (deleteEdge <$> text "src" <*> text "dst" <*> text "edgeType")),
  ("getNode", taking (getNode <$> text "id")),
  ("nodeExists", taking (nodeExists <$> text "id")),
  ("getNodeIdentifier", taking (getNodeIdentifier <$> text "id")),
  ("isEndpoint", taking (isEndpoint <$> text "id")),
  ("updateNodeVersion", taking (updateNodeVersion <$> text "id" <*> text "version")),
  ("findByType", taking (findByType <$> text "nodeType" ["type"])),
  ("findByAttr", taking (findByAttr <$> query)),
  ("queryNodes", taking (queryNodes <$> query)),
  ("getAllEdges", alone getAllEdges),
  ("getOutgoingEdges", taking (getOutgoingEdges <$> text "id" <*> texts? "edgeTypes")),
  ("getIncomingEdges", taking (getIncomingEdges <$> text "id" <*> texts? "edgeTypes")),
  ("queryEdges", taking (queryEdges <$> text "id" <*> text "direction" <*> texts? "edgeTypes" <*>
    number? "limit")),
  ("findDependentFiles", taking (findDependentFiles <$> text "id" <*> texts? "edgeTypes")),
  ("nodeCount", alone nodeCount),
  ("edgeCount", alone edgeCount),
  ("countNodesByType", taking (countNodesByType <$> texts? "types")),
  ("countEdgesByType", taking (countEdgesByType <$> texts? "edgeTypes")),
  ("declareFields", taking (declareFields <$>
    .required "fields" (Item.asList Wire.Field.fields.ofItem) [])),
  ("neighbors", taking (neighbors <$> text "id" <*> textsOrNone "edgeTypes")),
  ("bfs", taking (bfs <$> texts "startIds" <*> number "maxDepth" 4 <*> textsOrNone "edgeTypes")),
  ("dfs", taking (dfs <$> texts "startIds" <*> number "maxDepth" 4 <*> textsOrNone "edgeTypes")),
  ("reachability", taking (reachability <$> texts "startIds" <*> number "maxDepth" 4 <*>
    textsOrNone "edgeTypes" <*> flag "backward")),
  ("beginBatch", alone beginBatch),
  ("commitBatch", taking (commitBatch <$> texts "changedFiles" <*>
    .optional "nodes" (Item.asList Wire.Node.fields.ofItem) [] [] <*>
    .optional "edges" (Item.asList Wire.Edge.fields.ofItem) [] [])),
  ("abortBatch", alone abortBatch),
  ("rebuildIndexes", alone rebuildIndexes),
  ("createSnapshot", taking (createSnapshot <$> .optional "tags" Item.asTextMap ∅ [])),
  ("listSnapshots", taking (listSnapshots <$> text? "filterTag")),
  ("diffSnapshots", taking (diffSnapshots <$> number "fromVersion" 8 <*> number "toVersion" 8)),
  ("restoreSnapshot", taking (restoreSnapshot <$> number "version" 8)),
  ("deleteSnapshot", taking (deleteSnapshot <$> number "version" 8)),
  ("tagSnapshot", taking (tagSnapshot <$> number "version" 8 <*>
    .required "tags" Item.asTextMap [])),
  ("findSnapshot", taking (findSnapshot <$> text "tagKey" <*> text "tagValue")),
  ("checkGuarantee", taking (checkGuarantee <$> text "ruleSource")),
  ("datalogLoadRules", taking (datalogLoadRules <$> text "source")),
  ("datalogClearRules", alone datalogClearRules),
  ("datalogQuery", taking (datalogQuery <$> text "query")),
  ("executeDatalog", taking (executeDatalog <$> text "source")),
  ("ping", alone ping),
  ("flush", alone flush),
  ("compact", alone compact),
  ("clear", alone clear),
  ("getStats", alone getStats),
  ("shutdown", alone shutdown)]

/-- The way to read the command that an item names, by text or by number. -/
def readerOf (item : Item) : Except Fault Reader :=
  match item with
  | .str name => named name
  | .bin content => named (Utf8.decodeLossy content)
  | .int .u8 n | .int .u64 n =>
    match commands[n.toNat]? with
    | some command => .ok command.2
    | none => .error .invalidValue
  | _ => .error .invalidType
where
  /-- The way to read the command of a name. -/
  named (name : String) : Except Fault Reader :=
    match commands.lookup name with
    | some reader => .ok reader
    | none => .error (.unknownVariant name)

/-- The key under which the command is named. -/
def commandKey : String := "cmd"

/-- Whether an item is the given text, or octets that hold it. -/
def isKey (name : String) (item : Item) : Bool :=
  match item.asText with
  | .ok s => s == name
  | .error _ => false

/-- The reader of the command and the entries for its arguments. -/
def splitCommand (found : Option Reader) :
    List (Item × Item) → Except Fault (Option Reader × List (Item × Item))
  | [] => .ok (found, [])
  | (key, item) :: entries =>
    if isKey commandKey key then
      if found.isSome then .error (.duplicateField commandKey)
      else do
        let reader ← readerOf item
        splitCommand (some reader) entries
    else do
      let (reader, others) ← splitCommand found entries
      pure (reader, (key, item) :: others)

/-- The request given by the entries of a map. -/
def ofEntries (entries : List (Item × Item)) : Except Fault Request := do
  let (reader, arguments) ← splitCommand none entries
  match reader with
  | some reader => reader arguments
  | none => .error (.missingField commandKey)

/-! ### Writing -/

/-- A list of items, each written by a function. -/
def itemList {α : Type} (toItem : α → Item) (items : List α) : Item :=
  .arr (items.map toItem)

/-- The arguments of a command as they are written. -/
def arguments : Request → List (String × Item)
  | hello protocolVersion clientId =>
    fieldIfSome "protocolVersion" .ofNat protocolVersion ++ fieldIfSome "clientId" .str clientId
  | createDatabase name ephemeral => [("name", .str name), ("ephemeral", .bool ephemeral)]
  | openDatabase name mode => [("name", .str name), ("mode", .str mode)]
  | dropDatabase name => [("name", .str name)]
  | addNodes nodes => [("nodes", itemList Wire.Node.toItem nodes)]
  | addEdges edges skipValidation =>
    [("edges", itemList Wire.Edge.toItem edges), ("skipValidation", .bool skipValidation)]
  | deleteNode id | getNode id | nodeExists id | getNodeIdentifier id | isEndpoint id =>
    [("id", .str id)]
  | deleteEdge src dst type =>
    [("src", .str src), ("dst", .str dst), ("edgeType", .str type)]
  | updateNodeVersion id version => [("id", .str id), ("version", .str version)]
  | findByType type => [("nodeType", .str type)]
  | findByAttr query | queryNodes query => [("query", query.toItem)]
  | getOutgoingEdges id types | getIncomingEdges id types | findDependentFiles id types =>
    [("id", .str id)] ++ fieldIfSome "edgeTypes" .ofTexts types
  | queryEdges id direction types limit =>
    [("id", .str id), ("direction", .str direction)] ++ fieldIfSome "edgeTypes" .ofTexts types ++
      fieldIfSome "limit" .ofNat limit
  | countNodesByType types => fieldIfSome "types" .ofTexts types
  | countEdgesByType types => fieldIfSome "edgeTypes" .ofTexts types
  | declareFields fields => [("fields", itemList Wire.Field.toItem fields)]
  | neighbors id types => [("id", .str id), ("edgeTypes", .ofTexts types)]
  | bfs start maxDepth types | dfs start maxDepth types =>
    [("startIds", .ofTexts start), ("maxDepth", .ofNat maxDepth), ("edgeTypes", .ofTexts types)]
  | reachability start maxDepth types backward =>
    [("startIds", .ofTexts start), ("maxDepth", .ofNat maxDepth), ("edgeTypes", .ofTexts types),
      ("backward", .bool backward)]
  | commitBatch changedFiles nodes edges =>
    [("changedFiles", .ofTexts changedFiles), ("nodes", itemList Wire.Node.toItem nodes),
      ("edges", itemList Wire.Edge.toItem edges)]
  | createSnapshot tags => [("tags", .ofTextMap tags)]
  | listSnapshots tag => fieldIfSome "filterTag" .str tag
  | diffSnapshots source target =>
    [("fromVersion", .ofNat source), ("toVersion", .ofNat target)]
  | restoreSnapshot version | deleteSnapshot version => [("version", .ofNat version)]
  | tagSnapshot version tags => [("version", .ofNat version), ("tags", .ofTextMap tags)]
  | findSnapshot key value => [("tagKey", .str key), ("tagValue", .str value)]
  | checkGuarantee source => [("ruleSource", .str source)]
  | datalogLoadRules source | executeDatalog source => [("source", .str source)]
  | datalogQuery query => [("query", .str query)]
  | closeDatabase | listDatabases | currentDatabase | getAllEdges | nodeCount | edgeCount
  | beginBatch | abortBatch | rebuildIndexes | datalogClearRules | ping | flush | compact
  | clear | getStats | shutdown => []

end Request

end CodeGraph
