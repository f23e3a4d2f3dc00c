import CodeGraph.Path

/-!
# Settings of a server

What a server is told when it is started: where its databases are, on which transports it
listens, and how long it waits for a client that does not read.
-/

namespace CodeGraph

/-- Where a server listens unless told otherwise. -/
def defaultSocket : Path := ⟨"/tmp/rfdb.sock"⟩

/-- How many seconds a server waits for a client unless told otherwise. -/
def defaultSendTimeout : Nat := 60

/-- What a server was told when it was started. -/
structure Arguments where
  database : Path
  socket : Path
  port : Option Nat
  dataDirectory : Option Path
  metrics : Bool
  sendTimeout : Nat

/-- The settings of a server. -/
structure Config where
  database : Path
  socket : Path
  port : Option Nat
  dataDirectory : Path
  metrics : Bool
  sendTimeout : Nat

/-- Why settings are refused. -/
inductive ConfigError where
  | flagAsDatabase (text : String)
  | zeroPort
  | zeroSendTimeout
deriving DecidableEq, Repr

/-- The text of an error. -/
def ConfigError.message : ConfigError → String
  | flagAsDatabase text => s!"db-path '{text}' looks like a flag, not a path. The first argument must be the database path, e.g.: rfdb-server ./my-graph.rfdb --socket /tmp/rfdb.sock"
  | zeroPort => "--ws-port 0 is not allowed: clients must know the port in advance. Pass a fixed port, e.g. --ws-port 7474"
  | zeroSendTimeout => "--ws-send-timeout-secs must be at least 1"

namespace Config

/-- Where named databases are unless told otherwise: beside the default database. -/
def dataDirectoryOf (database : Path) : Path :=
  match database.parent? with
  | some parent => if parent.text.isEmpty then ⟨"."⟩ else parent
  | none => ⟨"."⟩

/-- The settings that arguments ask for. -/
def ofArguments (a : Arguments) : Except ConfigError Config :=
  if a.database.text.startsWith "--" then .error (.flagAsDatabase a.database.text)
  else if a.port = some 0 then .error .zeroPort
  else if a.sendTimeout = 0 then .error .zeroSendTimeout
  else .ok {
    database := a.database
    socket := a.socket
    port := a.port
    dataDirectory := a.dataDirectory.getD (dataDirectoryOf a.database)
    metrics := a.metrics
    sendTimeout := a.sendTimeout }

end Config

end CodeGraph
