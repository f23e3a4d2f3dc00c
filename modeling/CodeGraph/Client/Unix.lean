import CodeGraph.Client.Reply
import CodeGraph.Client.Settings
import CodeGraph.Framing
import CodeGraph.Protocol.Envelope

/-!
# Clients on the local socket

A client on the local socket sends one request at a time and waits for its reply.  The
parts of a long answer are put together again.
-/

namespace CodeGraph.Client

/-- A client on the local socket: the number in the name of its next request. -/
structure Unix where
  nextId : Nat

/-- The name of a request. -/
def requestName (number : Nat) : String := s!"c{number}"

namespace Unix

/-- A client that has sent no request. -/
def start : Unix := ⟨1⟩

/-- The client that settings ask for.  Whether a server listens at a path, or can be
started there, is told. -/
def ofSettings (listening : Path → Bool) (settings : Settings) : Except Error Unix :=
  settings.checked.bind fun
    | .unix socket .. => if listening socket then .ok start else .error (.unavailable socket)
    | .webSocket _ => .error (.settings .needsUnix)

/-- The request as it is sent, with the name that it was given. -/
def send (client : Unix) (request : Request) : Envelope × Unix :=
  (⟨some (requestName client.nextId), request⟩, ⟨client.nextId + 1⟩)

/-- Whether a reply answers a request: it carries its name, or it is an error without
any name, which is the answer to a request that the server could not read. -/
def answers (requestId : String) (reply : Reply) : Bool :=
  match reply.requestId? with
  | some id => id == requestId
  | none => reply.isError

/-- The reply to a request, made of the messages that come in, and the messages after it.
The nodes of the parts that came before are given. -/
def receive (requestId : String) (nodes : List Json) : (messages : List Bytes) →
    Except Error Reply × List Bytes
  | [] => (.error .closed, [])
  | message :: messages =>
    match Reply.ofBytes message with
    | .error error => (.error (.reply error), messages)
    | .ok reply =>
      if !answers requestId reply then
        (.error (.reply (.otherRequest requestId reply.requestId?)), messages)
      else if reply.requestId?.isNone || !reply.isChunk then (.ok reply, messages)
      else if reply.isLast then (.ok (.ofNodes requestId (nodes ++ reply.nodes)), messages)
      else receive requestId (nodes ++ reply.nodes) messages

end Unix

end CodeGraph.Client
