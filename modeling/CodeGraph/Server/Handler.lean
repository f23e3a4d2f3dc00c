import CodeGraph.Framing
import CodeGraph.Server.Connection

/-!
# Handlers

A handler serves one connection from the moment it is accepted until it is closed.  What
arrives is a sequence of inbound events, and what becomes of each reply that is sent is a
delivery; the handlers of the two transports differ in how they react to deliveries that
fail.
-/

namespace CodeGraph

/-- What arrives over a transport. -/
inductive Inbound where
  | message (payload : Bytes)
  | ended
  | failed

/-- What becomes of a reply that is sent. -/
inductive Delivery where
  | sent
  | failed
  | timedOut
deriving DecidableEq, Repr

/-- A connection while it is served: the messages handled, the replies sent, the number
of the next delivery, and whether the server was told to stop. -/
structure Service where
  connection : Connection
  server : Server
  handled : List Bytes
  replies : List Bytes
  nextDelivery : Nat
  terminated : Bool

namespace Server

/-- Removes the file of the socket. -/
def removeSocket (server : Server) : Server :=
  match server.socket with
  | some path =>
    match server.catalog.disk.removeFile? path with
    | some disk => server.withCatalog { server.catalog with disk := disk }
    | none => server
  | none => server

/-- Flushes all databases and removes the file of the socket. -/
def flushAndCleanUp (server : Server) : Server :=
  (server.withCatalog server.catalog.flushAll.2).removeSocket

/-- A connection that was just accepted, counted as opened. -/
def accept (server : Server) (id : Nat) (transport : Transport) : Connection × Server :=
  ((Connection.start id transport).accepted,
    { server with metrics := server.metrics.connectionOpened transport })

/-- Attaches an old client to the default database. -/
def attachDefault (server : Server) (conn : Connection) : Connection × Server :=
  let (conn, catalog) := conn.openDefault server.catalog
  (conn, server.withCatalog catalog)

/-- Closes a connection and counts it as closed. -/
def release (server : Server) (conn : Connection) (transport : Transport) :
    Connection × Server :=
  let (conn, catalog) := conn.beginClose.close server.catalog
  let server := server.withCatalog catalog
  (conn, { server with metrics := server.metrics.connectionClosed transport })

end Server

namespace Service

/-- A connection that was just accepted. -/
def start (server : Server) (id : Nat) (transport : Transport) : Service :=
  let (connection, server) := server.accept id transport
  ⟨connection, server, [], [], 0, false⟩

/-- Attaches an old client to the default database. -/
def openDefault (s : Service) : Service :=
  let (connection, server) := s.server.attachDefault s.connection
  { s with connection := connection, server := server }

/-- Handles one message; the replies are still to be sent. -/
def handle (s : Service) (r : Readings) (payload : Bytes) : FrameOutcome × Service :=
  let (outcome, connection, server) := s.connection.handle s.server r payload
  (outcome, { s with
    connection := connection, server := server, handled := s.handled ++ [payload] })

/-- What becomes of a reply: one that is too large is not sent at all. -/
def delivery (deliveries : Nat → Delivery) (n : Nat) (frame : Bytes) : Delivery :=
  if Framing.fits frame.length then deliveries n else .failed

/-- Sends replies until one cannot be sent. -/
def send (s : Service) (deliveries : Nat → Delivery) : List Bytes → Delivery × Service
  | [] => (.sent, s)
  | frame :: frames =>
    let result := delivery deliveries s.nextDelivery frame
    let next := { s with nextDelivery := s.nextDelivery + 1 }
    match result with
    | .sent => { next with replies := s.replies ++ [frame] }.send deliveries frames
    | failure => (failure, next)

/-- Closes the connection and counts it as closed. -/
def finish (s : Service) (transport : Transport) : Service :=
  let (connection, server) := s.server.release s.connection transport
  { s with connection := connection, server := server }

/-- Stops the server after the connection was closed. -/
def terminate (s : Service) : Service :=
  { s with server := s.server.removeSocket, terminated := true }

end Service

/-! ### The local socket -/

namespace Unix

/-- Serves what arrives.  A request to shut down is obeyed even if its reply cannot be
sent; any other failure to send ends the connection. -/
def serve (readings : Nat → Readings) (deliveries : Nat → Delivery) (s : Service) :
    List Inbound → Service
  | [] | .ended :: _ | .failed :: _ => s.finish .unix
  | .message payload :: inbound =>
    let (outcome, s) := s.handle (readings s.handled.length) payload
    let (result, s) := s.send deliveries outcome.frames
    match outcome.action, result with
    | .shutdown, _ => (s.finish .unix).terminate
    | .proceed, .sent => serve readings deliveries s inbound
    | .proceed, _ => s.finish .unix

/-- Serves a connection from its beginning to its end.  Old clients are attached to the
default database. -/
def handle (server : Server) (id : Nat) (legacy : Bool) (readings : Nat → Readings)
    (deliveries : Nat → Delivery) (inbound : List Inbound) : Service :=
  let s := Service.start server id .unix
  serve readings deliveries (if legacy then s.openDefault else s) inbound

/-- What arrives over a socket whose whole stream is known.  Every message takes at least
the octets of its length, which bounds their number. -/
def inboundOf (stream : Bytes) : List Inbound :=
  messages stream.length stream
where
  /-- At most so many messages. -/
  messages : Nat → Bytes → List Inbound
    | 0, _ => [.ended]
    | limit + 1, stream =>
      match Framing.decode stream with
      | .ok none => [.ended]
      | .ok (some (message, rest)) => .message message :: messages limit rest
      | .error _ => [.failed]

end Unix

/-! ### WebSocket -/

namespace WebSocket

/-- Serves what arrives.  Any failure to send ends the connection, and a request to shut
down is obeyed only if its reply was sent. -/
def serve (readings : Nat → Readings) (deliveries : Nat → Delivery) (s : Service) :
    List Inbound → Service
  | [] | .ended :: _ | .failed :: _ => s.finish .webSocket
  | .message payload :: inbound =>
    let (outcome, s) := s.handle (readings s.handled.length) payload
    let (result, s) := s.send deliveries outcome.frames
    match result, outcome.action with
    | .sent, .shutdown => (s.finish .webSocket).terminate
    | .sent, .proceed => serve readings deliveries s inbound
    | .timedOut, _ =>
      { s with server := { s.server with
          metrics := s.server.metrics.recordSendTimeout } }.finish .webSocket
    | .failed, _ => s.finish .webSocket

/-- Serves a connection from its beginning to its end. -/
def handle (server : Server) (id : Nat) (readings : Nat → Readings)
    (deliveries : Nat → Delivery) (inbound : List Inbound) : Service :=
  serve readings deliveries (Service.start server id .webSocket) inbound

end WebSocket

end CodeGraph
