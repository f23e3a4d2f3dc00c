import CodeGraph.Client.Error
import CodeGraph.Pack.Json

/-!
# Replies as a client sees them

A reply is a map.  It may carry the name of the request that it answers, it is an error if
it says so, and it may be one of several parts of a long answer.
-/

namespace CodeGraph.Client

/-- A reply: members under keys, sorted by key. -/
structure Reply where
  members : List (String × Json)

namespace Reply

/-- The key of the name of the request. -/
def idKey : String := "requestId"

/-- The reply in a message. -/
def ofBytes (message : Bytes) : Except ReplyError Reply :=
  match Json.unpack message with
  | .ok (.obj members) => .ok ⟨members⟩
  | .ok value => .error (.notAMap value)
  | .error fault => .error (.unreadable fault)

/-- The value under a key. -/
def get? (reply : Reply) (key : String) : Option Json :=
  reply.members.lookup key

/-- The text under a key. -/
def text? (reply : Reply) (key : String) : Option String :=
  (reply.get? key).bind Json.asString?

/-- The name of the request that is answered. -/
def requestId? (reply : Reply) : Option String := reply.text? idKey

/-- The text of an error. -/
def error? (reply : Reply) : Option String := reply.text? "error"

/-- The code of an error. -/
def code? (reply : Reply) : Option String := reply.text? "code"

/-- Whether the reply is an error. -/
def isError (reply : Reply) : Bool := (reply.get? "error").isSome

/-- Whether the reply is a part of a long answer. -/
def isChunk (reply : Reply) : Bool :=
  (reply.get? "done").isSome && (reply.get? "chunkIndex").isSome

/-- Whether no part follows this one; a part that does not say so is the last. -/
def isLast (reply : Reply) : Bool :=
  ((reply.get? "done").bind Json.asBool?).getD true

/-- The nodes in a part of a long answer. -/
def nodes (reply : Reply) : List Json :=
  match reply.get? "nodes" with
  | some (.arr nodes) => nodes
  | _ => []

/-- All but the name of the request. -/
def payload (reply : Reply) : List (String × Json) :=
  reply.members.filter fun (key, _) => key != idKey

/-- The reply to a named request that holds all nodes of a long answer. -/
def ofNodes (requestId : String) (nodes : List Json) : Reply :=
  ⟨Json.sortMembers [(idKey, .str requestId), ("nodes", .arr nodes)]⟩

/-- The reply, unless it is an error that has a text. -/
def orError (reply : Reply) : Except Error Reply :=
  match reply.error? with
  | some message => .error (.server message reply.code?)
  | none => .ok reply

/-- The version of the protocol on which the server settled; it is a word of 32 bits. -/
def version (reply : Reply) : Except Error Nat :=
  match (reply.get? "protocolVersion").bind Json.asNat? with
  | some version => .ok (UInt32.ofNat version).toNat
  | none => .error (.reply .noVersion)

end Reply

/-- The version on which client and server settled, given the reply to that request. -/
def settled (reply : Except Error Reply) : Except Error Nat := do
  let reply ← reply
  let reply ← reply.orError
  reply.version

end CodeGraph.Client
