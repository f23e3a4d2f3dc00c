import CodeGraph.Client.WebSocket
import CodeGraph.Server.Handler
import CodeGraph.Server.Listeners

/-!
# A server among its clients

A network is a server with the clients that are connected to it.  A client sends a request
and waits for the reply before anything else happens, so that a run is a sequence of
exchanges.
-/

namespace CodeGraph

/-- A client of either kind. -/
inductive Caller where
  | unix (client : Client.Unix)
  | webSocket (client : Client.WebSocket Unit)

/-- A client with the connection that serves it. -/
structure Link where
  caller : Caller
  connection : Connection

/-- A server with its clients, which have names. -/
structure Network where
  server : Server
  links : Std.ExtTreeMap String Link

namespace Caller

/-- The transport of a client. -/
def transport : Caller → Transport
  | unix _ => .unix
  | webSocket _ => .webSocket

/-- A client that has sent no request. -/
def start : Transport → Caller
  | .unix => unix .start
  | .webSocket => webSocket .start

/-- The client after its connection was closed from the other side. -/
def disconnected : Caller → Caller
  | unix client => unix client
  | webSocket client => webSocket client.stop.2

/-- The request as it is sent by a client, if it can be sent. -/
def send (caller : Caller) (isOpen : Bool) (request : Request) :
    Except Client.Error Envelope × Caller :=
  match caller with
  | unix client =>
    let (envelope, client) := client.send request
    (if isOpen then .ok envelope else .error .stream, unix client)
  | webSocket client =>
    let (envelope, client) := client.send () request
    (envelope, webSocket client)

/-- The reply to a request that was sent, given the messages that come in. -/
def receive (caller : Caller) (envelope : Envelope) (messages : List Bytes) :
    Except Client.Error Client.Reply × Caller :=
  match caller with
  | unix client =>
    ((Client.Unix.receive (envelope.requestId.getD "") [] messages).1, unix client)
  | webSocket client =>
    let (delivered, client) := client.receiveAll messages
    (match delivered with
      | ((), reply) :: _ => .ok reply
      | [] => .error .closed, webSocket client)

end Caller

namespace Link

/-- Whether the server still serves the client. -/
def isOpen (link : Link) : Bool := link.connection.state != .closed

end Link

namespace Network

/-- A server without clients. -/
def start (server : Server) : Network := ⟨server, ∅⟩

/-- Whether the file of the socket is there. -/
def hasSocket (n : Network) : Bool :=
  match n.server.socket with
  | some path => n.server.catalog.disk.contains path
  | none => false

/-- Connects a client; `none` if the server cannot be reached.  Over the local socket it
can be reached as long as the file of the socket is there, over WebSocket if the host has
a network at all. -/
def connect? (n : Network) (hasNetwork : Bool) (name : String) (transport : Transport) :
    Option Network :=
  let reached := match transport with
    | .unix => n.hasSocket
    | .webSocket => hasNetwork
  if reached then
    let (connection, server) := n.server.accept n.server.nextClient transport
    let server := { server with nextClient := server.nextClient + 1 }
    let (connection, server) := match transport with
      | .unix => server.attachDefault connection
      | .webSocket => (connection, server)
    some ⟨server, n.links.insert name ⟨.start transport, connection⟩⟩
  else none

/-- Serves a message of a client, which ends its connection if it tells the server to
stop. -/
def serve (server : Server) (link : Link) (r : Readings) (message : Bytes) :
    List Bytes × Link × Server :=
  let (outcome, connection, server) := link.connection.handle server r message
  match outcome.action with
  | .proceed => (outcome.frames, { link with connection := connection }, server)
  | .shutdown =>
    let (connection, server) := server.release connection link.caller.transport
    (outcome.frames, { link with connection := connection }, server.removeSocket)

/-- A request of a client and its reply. -/
def exchange (server : Server) (link : Link) (r : Readings) (request : Request) :
    Except Client.Error Client.Reply × Link × Server :=
  match link.caller.send link.isOpen request with
  | (.error error, caller) => (.error error, { link with caller := caller }, server)
  | (.ok envelope, caller) =>
    let (messages, link, server) := serve server { link with caller := caller } r envelope.encode
    let (reply, caller) := link.caller.receive envelope messages
    let caller := if link.isOpen then caller else caller.disconnected
    (reply, { link with caller := caller }, server)

/-- A request of a named client and its reply; `none` if there is no such client. -/
def request? (n : Network) (name : String) (r : Readings) (request : Request) :
    Option (Except Client.Error Client.Reply × Network) :=
  n.links[name]?.map fun link =>
    let (reply, link, server) := exchange n.server link r request
    (reply, ⟨server, n.links.insert name link⟩)

/-- Disconnects a client; `none` if there is no such client. -/
def disconnect? (n : Network) (name : String) : Option Network :=
  n.links[name]?.map fun link =>
    let server := if link.isOpen then
        (n.server.release link.connection link.caller.transport).2
      else n.server
    ⟨server, n.links.erase name⟩

end Network

end CodeGraph
