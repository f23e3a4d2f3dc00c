import CodeGraph.Protocol.Request

/-!
# Envelopes

A request travels in an envelope, a map that may also hold a name for the request which
the reply repeats.  The entries of the map are looked at in order: the request name is
read as soon as it is met, all else is kept for the command.
-/

namespace CodeGraph

open Pack

/-- A request with the name under which it is answered. -/
structure Envelope where
  requestId : Option String
  request : Request

namespace Envelope

/-- The key under which a request is named. -/
def idKey : String := "requestId"

/-! ### Reading -/

/-- A key of the envelope, which must not have parts. -/
def unpackKey (bs : Bytes) : Except Fault (Item × Bytes) := do
  let (head, bs) ← Json.orMalformed (Head.read? bs)
  match head with
  | .arr _ | .map _ | .ext _ => .error .invalidType
  | head => Json.orMalformed (Item.readBody? none head bs)

/-- The name of a request. -/
def unpackId (bs : Bytes) : Except Fault (Option String × Bytes) := do
  let (head, bs) ← Json.orMalformed (Head.read? bs)
  match head with
  | .nil => pure (none, bs)
  | .str n =>
    let (s, bs) ← Json.unpackText n bs
    pure (some s, bs)
  | .bin n =>
    let (field, bs) ← Json.orMalformed (Bytes.take? n bs)
    match Utf8.decode? field with
    | some s => pure (some s, bs)
    | none => .error .invalidValue
  | _ => .error .invalidType

/-- As many entries as told: the name of the request, if it was met, and the others. -/
def unpackEntries (id : Option (Option String)) :
    (count : Nat) → Bytes → Except Fault (Option (Option String) × List (Item × Item))
  | 0, _ => .ok (id, [])
  | count + 1, bs => do
    let (key, bs) ← unpackKey bs
    if Request.isKey idKey key then
      if id.isSome then .error (.duplicateField idKey)
      else
        let (name, bs) ← unpackId bs
        unpackEntries (some name) count bs
    else
      let (item, bs) ← Json.orMalformed (Item.read? (maxNesting - 1) bs)
      let (id, entries) ← unpackEntries id count bs
      pure (id, (key, item) :: entries)

/-- The fault of a document that is not a map. -/
def faultOf (head : Head) (bs : Bytes) : Fault :=
  match head with
  | .str n =>
    if ((Bytes.take? n bs).bind fun p => Utf8.decode? p.1).isSome then .invalidType
    else .malformed
  | .bin n => if (Bytes.take? n bs).isSome then .invalidType else .malformed
  | _ => .invalidType

/-- The envelope that a document is; octets after it are ignored. -/
def decode (bs : Bytes) : Except Fault Envelope := do
  let (head, bs) ← Json.orMalformed (Head.read? bs)
  match head with
  | .map n =>
    let (id, entries) ← unpackEntries none n bs
    let request ← Request.ofEntries entries
    pure ⟨id.join, request⟩
  | head => .error (faultOf head bs)

/-- The name of a request that an item is. -/
def idOfItem : Item → Except Fault (Option String) :=
  Item.asOption Item.asText

/-- The envelope given by an item, of a map whose keys are all different. -/
def ofItem : Item → Except Fault Envelope
  | .map entries => do
    let id ← match entries.find? fun (key, _) => Request.isKey idKey key with
      | some (_, item) => idOfItem item
      | none => pure none
    let request ← Request.ofEntries (entries.filter fun (key, _) => !Request.isKey idKey key)
    pure ⟨id, request⟩
  | _ => .error .invalidType

/-! ### Writing -/

/-- The document of an envelope. -/
def toItem (e : Envelope) : Item :=
  .record (fieldIfSome idKey .str e.requestId ++
    (Request.commandKey, .str e.request.name) :: e.request.arguments)

/-- The octets of an envelope. -/
def encode (e : Envelope) : Bytes := e.toItem.write

end Envelope

end CodeGraph
