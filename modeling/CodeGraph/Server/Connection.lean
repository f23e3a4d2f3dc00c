import CodeGraph.Protocol.Envelope
import CodeGraph.Server.Dispatch

/-!
# Connections

A connection is a session with a place in its life.  It takes messages as octets and gives
the octets of the replies; what it is connected by does not matter here.
-/

namespace CodeGraph

/-- Where a connection is in its life. -/
inductive ConnectionState where
  | connecting
  | handshaking
  | active
  | closing
  | closed
deriving DecidableEq, Repr

/-- A connection of a client. -/
structure Connection where
  session : Session
  state : ConnectionState

/-- What is to be done after the replies are sent. -/
inductive FrameAction where
  | proceed
  | shutdown
deriving DecidableEq, Repr

/-- What comes of a message: the replies in the order in which they are sent, and what
is to be done then. -/
structure FrameOutcome where
  frames : List Bytes
  action : FrameAction

namespace Reply

/-- What is to be done after a reply. -/
def action : Reply → FrameAction
  | shutdown _ => .shutdown
  | single _ | chunked _ => .proceed

end Reply

namespace Connection

/-- A connection that is being made. -/
def start (id : Nat) (transport : Transport) : Connection :=
  ⟨.start id transport, .connecting⟩

/-- After the transport has accepted the connection. -/
def accepted (conn : Connection) : Connection :=
  if conn.state = .connecting then { conn with state := .handshaking } else conn

/-- Attaches an old client to the default database, if there is one. -/
def openDefault (conn : Connection) (catalog : Catalog) : Connection × Catalog :=
  match catalog.getDatabase defaultDatabase with
  | (.ok handle, catalog) =>
    let (session, catalog) := conn.session.openDatabase catalog handle .readWrite
    ({ conn with session := session }, catalog)
  | (.error _, catalog) => (conn, catalog)

/-- The state after a request was carried out. -/
def stateAfter (state : ConnectionState) (action : FrameAction) : ConnectionState :=
  match action, state with
  | .shutdown, _ => .closing
  | .proceed, .handshaking => .active
  | .proceed, state => state

/-- The reply to a message that is not a request. -/
def faultReply (fault : Pack.Fault) : Response :=
  .failed ("Invalid request: " ++ fault.message)

/-- Carries out the request in a message. -/
def handle (conn : Connection) (server : Server) (r : Readings) (message : Bytes) :
    FrameOutcome × Connection × Server :=
  match Envelope.decode message with
  | .error fault =>
    (⟨[(faultReply fault).encode none], .proceed⟩, conn,
      { server with metrics := server.metrics.recordDecodeError })
  | .ok envelope =>
    let (reply, server, session) := server.dispatch conn.session r envelope.request
    let metrics := server.metrics.recordQuery envelope.request.name r.elapsed r.sinceStart
    (⟨reply.responses.map (Response.encode envelope.requestId), reply.action⟩,
      ⟨session, stateAfter conn.state reply.action⟩, { server with metrics := metrics })

/-- After the connection has begun to close. -/
def beginClose (conn : Connection) : Connection :=
  if conn.state = .closed then conn else { conn with state := .closing }

/-- Closes the connection, leaving its database; closing twice does no harm. -/
def close (conn : Connection) (catalog : Catalog) : Connection × Catalog :=
  if conn.state = .closed then (conn, catalog)
  else
    let (session, catalog) := conn.session.closeDatabase catalog
    (⟨session, .closed⟩, catalog)

end Connection

end CodeGraph
