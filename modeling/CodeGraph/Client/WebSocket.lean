import CodeGraph.Client.Pending
import CodeGraph.Client.Reply
import CodeGraph.Client.Settings
import CodeGraph.Client.Unix

/-!
# Clients on WebSocket

A client on WebSocket may have many requests under way.  Each reply goes to whoever sent
the request that it names.  An error without a name is the answer to a request that the
server could not read; since a server answers in order, it goes to whoever has waited
longest.  Messages that are no replies are ignored.
-/

namespace CodeGraph.Client

/-- A client on WebSocket: those who wait, as long as the connection is read, and the
number in the name of the next request. -/
structure WebSocket (ω : Type) where
  pending : Option (Pending ω)
  nextId : Nat

namespace WebSocket

variable {ω : Type}

/-- A client that has sent no request. -/
def start : WebSocket ω := ⟨some .empty, 1⟩

/-- The client that settings ask for.  Whether a server answers at an address is told. -/
def ofSettings (answering : String → Bool) (settings : Settings) :
    Except Error (WebSocket ω) :=
  settings.checked.bind fun
    | .webSocket url => if answering url then .ok start else .error .webSocket
    | .unix .. => .error (.settings .needsWebSocket)

/-- Draws a name for a request. -/
def draw (client : WebSocket ω) : String × WebSocket ω :=
  (requestName client.nextId, { client with nextId := client.nextId + 1 })

/-- Notes who waits for the reply to a request.  After the connection has ended nobody can
wait. -/
def register (client : WebSocket ω) (id : String) (waiter : ω) : Except Error (WebSocket ω) :=
  match client.pending with
  | none => .error .closed
  | some pending => .ok { client with pending := some (pending.insert id waiter) }

/-- Names a request and notes who waits for its reply; the request is still to be sent. -/
def send (client : WebSocket ω) (waiter : ω) (request : Request) :
    Except Error Envelope × WebSocket ω :=
  let (id, client) := client.draw
  match client.register id waiter with
  | .error error => (.error error, client)
  | .ok client => (.ok ⟨some id, request⟩, client)

/-- After a request could not be sent. -/
def forget (client : WebSocket ω) (id : String) : WebSocket ω :=
  { client with pending := client.pending.map fun pending => (pending.remove id).2 }

/-- Who gets a reply, and those who wait still. -/
def route (pending : Pending ω) (reply : Reply) : Option ω × Pending ω :=
  match reply.requestId? with
  | some id => pending.remove id
  | none => if reply.isError then pending.removeOldest else (none, pending)

/-- After a message has come in: who gets the reply in it, if anybody. -/
def receive (client : WebSocket ω) (message : Bytes) : Option (ω × Reply) × WebSocket ω :=
  match Reply.ofBytes message, client.pending with
  | .ok reply, some pending =>
    let (waiter, pending) := route pending reply
    (waiter.map (·, reply), { client with pending := some pending })
  | _, _ => (none, client)

/-- Names several requests, each with who waits for its reply; the requests to be sent. -/
def sendAll (client : WebSocket ω) : List (ω × Request) → List Envelope × WebSocket ω
  | [] => ([], client)
  | (waiter, request) :: requests =>
    let (sent, client) := client.send waiter request
    let (envelopes, client) := client.sendAll requests
    (sent.toOption.toList ++ envelopes, client)

/-- After several messages have come in: who gets which reply, in the order in which they
came. -/
def receiveAll (client : WebSocket ω) : List Bytes → List (ω × Reply) × WebSocket ω
  | [] => ([], client)
  | message :: messages =>
    let (delivered, client) := client.receive message
    let (further, client) := client.receiveAll messages
    (delivered.toList ++ further, client)

/-- After the connection has ended: who waits in vain. -/
def stop (client : WebSocket ω) : List ω × WebSocket ω :=
  ((client.pending.map Pending.toList).getD [], { client with pending := none })

end WebSocket

end CodeGraph.Client
