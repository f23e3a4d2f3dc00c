/-!
# Transports

Clients reach a server over a local socket or over WebSocket.  Long answers are streamed
in parts only over the local socket.
-/

namespace CodeGraph

/-- How a client is connected. -/
inductive Transport where
  | unix
  | webSocket
deriving DecidableEq, Repr

namespace Transport

/-- The name of a transport. -/
def text : Transport → String
  | unix => "unix"
  | webSocket => "websocket"

/-- The transport with a name. -/
def ofName? : String → Option Transport
  | "unix" => some .unix
  | "websocket" => some .webSocket
  | _ => none

/-- A transport is found by its name. -/
@[simp] theorem ofName?_text (t : Transport) : ofName? t.text = some t := by
  cases t <;> rfl

/-- Whether answers may be streamed. -/
def streams : Transport → Bool
  | unix => true
  | webSocket => false

end Transport

/-- The largest message that a transport carries, in octets. -/
def maxMessageSize : Nat := 100 * 1024 * 1024

end CodeGraph
