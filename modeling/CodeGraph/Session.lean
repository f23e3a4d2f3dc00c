import CodeGraph.Catalog
import CodeGraph.Rules.Syntax
import CodeGraph.Transport

/-!
# Sessions

Each connection has a session: the negotiated version of the protocol, the open database
with the mode of access, a batch that may have been begun, and the rules that the client
has loaded.
-/

namespace CodeGraph

/-- Whether a session may change its database. -/
inductive AccessMode where
  | readOnly
  | readWrite
deriving DecidableEq, Repr

namespace AccessMode

/-- The mode that a client asks for; anything unknown allows changes. -/
def ofName (name : String) : AccessMode :=
  if ["ro", "readonly", "read-only"].contains name then readOnly else readWrite

/-- The name of a mode. -/
def text : AccessMode → String
  | readOnly => "ro"
  | readWrite => "rw"

/-- Whether changes are allowed. -/
def allowsWrites : AccessMode → Bool
  | readOnly => false
  | readWrite => true

end AccessMode

/-- The state of a client. -/
structure Session where
  id : Nat
  transport : Transport
  version : Nat
  negotiated : Bool
  clientName : Option String
  current : Option Handle
  mode : AccessMode
  batch : Option String
  batchesBegun : Nat
  rules : List Rules.Rule

namespace Session

/-- The version spoken before a client has asked for one. -/
def oldestVersion : Nat := 1

/-- The version for a client that asks for none in particular. -/
def usualVersion : Nat := 2

/-- The newest version of the protocol. -/
def newestVersion : Nat := 3

/-- A session without a database. -/
def start (id : Nat) (transport : Transport) : Session where
  id := id
  transport := transport
  version := oldestVersion
  negotiated := false
  clientName := none
  current := none
  mode := .readWrite
  batch := none
  batchesBegun := 0
  rules := []

/-- Settles the version of the protocol and the name of the client, the first time only. -/
def negotiate (s : Session) (requested : Option Nat) (clientName : Option String) : Session :=
  if s.negotiated then s
  else { s with
    version := max oldestVersion (min (requested.getD usualVersion) newestVersion)
    negotiated := true
    clientName := clientName }

/-! ### Databases -/

/-- Leaves the open database, which ends any batch. -/
def closeDatabase (s : Session) (c : Catalog) : Session × Catalog :=
  let left := { s with batch := none, mode := .readWrite, current := none }
  match s.current with
  | none => (left, c)
  | some handle =>
    let c := c.detach handle
    (left, match c.database? handle with
      | some db => c.cleanUp db.name
      | none => c)

/-- Opens a database, leaving another one that is open. -/
def openDatabase (s : Session) (c : Catalog) (handle : Handle) (mode : AccessMode) :
    Session × Catalog :=
  if s.current = some handle then ({ s with mode := mode }, c)
  else
    let (s, c) := s.closeDatabase c
    ({ s with current := some handle, mode := mode }, c.attach handle)

/-- The open database. -/
def database? (s : Session) (c : Catalog) : Option Database :=
  s.current.bind c.database?

/-! ### Batches -/

/-- Begins a batch, unless one has been begun; gives its name. -/
def beginBatch (s : Session) : Option (String × Session) :=
  match s.batch with
  | some _ => none
  | none =>
    let name := s!"batch-{s.id}-{s.batchesBegun + 1}"
    some (name, { s with batch := some name, batchesBegun := s.batchesBegun + 1 })

end Session

end CodeGraph
